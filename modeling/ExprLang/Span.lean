import ExprLang.Number.Digits

/-!
# Source spans

A span is a range of byte offsets into source text.  Offsets are 32-bit: a conversion from
larger offsets either fails or stops at the largest one.
-/

namespace ExprLang

/-- The byte range from `start` up to `stop`. -/
structure Span where
  start : Nat
  stop : Nat
  deriving DecidableEq, Inhabited

/-- An offset that does not fit a span. -/
inductive SpanError
  | startTooLarge (offset : Nat)
  | endTooLarge (offset : Nat)
  deriving DecidableEq

def SpanError.message : SpanError → String
  | .startTooLarge n => "span start " ++ intText n ++ " exceeds u32::MAX"
  | .endTooLarge n => "span end " ++ intText n ++ " exceeds u32::MAX"

namespace Span

def limit : Nat := UInt32.size - 1

/-- The span of a range whose offsets fit. -/
def ofRange? (start stop : Nat) : Except SpanError Span :=
  if limit < start then .error (.startTooLarge start)
  else if limit < stop then .error (.endTooLarge stop)
  else .ok ⟨start, stop⟩

/-- The span of a range, each offset at most the limit. -/
def ofRange (start stop : Nat) : Span := ⟨min start limit, min stop limit⟩

def point (offset : Nat) : Span := ofRange offset offset

/-- The span moved right, each offset at most the limit. -/
def shift (s : Span) (offset : Nat) : Span := ofRange (s.start + offset) (s.stop + offset)

/-- The smallest span that covers both. -/
def merge (s t : Span) : Span := ⟨min s.start t.start, max s.stop t.stop⟩

/-- The number of bytes; a reversed range has none. -/
def length (s : Span) : Nat := s.stop - s.start

def isEmpty (s : Span) : Bool := s.start = s.stop

def text (s : Span) : String := intText s.start ++ ".." ++ intText s.stop

/-- Within the limit both conversions agree. -/
theorem ofRange?_eq_ok {start stop : Nat} (hstart : start ≤ limit) (hstop : stop ≤ limit) :
    ofRange? start stop = .ok (ofRange start stop) := by
  simp [ofRange?, ofRange, Nat.not_lt.mpr hstart, Nat.not_lt.mpr hstop,
    Nat.min_eq_left hstart, Nat.min_eq_left hstop]

end Span
end ExprLang
