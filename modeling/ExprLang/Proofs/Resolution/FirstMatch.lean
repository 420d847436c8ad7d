import Mathlib.Tactic.Common
import ExprLang.Resolver

/-!
# The first answer in a chain

A chain of resolvers is a search.  The resolvers are asked in order, each in the world that those
before it left, and the first outcome that is an answer or an error is the outcome of the chain.
What stands behind that resolver in the list makes no difference, and a chain leaves a question to
others exactly when all of its resolvers do.
-/

namespace ExprLang

/-- A question about a base value, with the kind of its answer. -/
inductive Query : Type → Type
  | get (base property : Value) : Query Value
  | type (base property : Value) : Query ValueType
  | set (base property value : Value) : Query Unit
  | readOnly (base property : Value) : Query Bool
  | invoke (base : Value) (method : String) (args : List Value) : Query Value

namespace Resolver

variable {α : Type}

def ask (r : Resolver) (services : Services) : Query α → Action (Resolution α)
  | .get base property => r.get services base property
  | .type base property => r.type services base property
  | .set base property value => r.set services base property value
  | .readOnly base property => r.readOnly services base property
  | .invoke base method args => r.invoke services base method args

theorem ask_chain (resolvers : List Resolver) (services : Services) (query : Query α) :
    (chain resolvers).ask services query = first (resolvers.map (·.ask services query)) := by
  cases query <;> rfl

/-- The outcome ends a search: it is an answer or an error. -/
def IsFinal (outcome : EStateM.Result Failure World (Resolution α)) : Prop :=
  ∀ after, outcome ≠ .ok .unresolved after

section Search

variable {services : Services} {query : Query α}

/-- The resolvers leave the question to others one after the other, which leads from one world to
another. -/
inductive PassOn (services : Services) (query : Query α) : List Resolver → World → World → Prop
  | nil (world : World) : PassOn services query [] world world
  | cons {r : Resolver} {rest : List Resolver} {before mid after : World} :
      r.ask services query before = .ok .unresolved mid → PassOn services query rest mid after →
      PassOn services query (r :: rest) before after

variable {r : Resolver} {passed rest : List Resolver} {before mid after : World}

theorem PassOn.chain_append (h : PassOn services query passed before mid) :
    (chain (passed ++ rest)).ask services query before = (chain rest).ask services query mid := by
  induction h with
  | nil => rfl
  | cons hask _ ih =>
      rw [ask_chain] at ih ⊢
      rw [List.cons_append, List.map_cons, first_cons_unresolved hask]
      exact ih

theorem PassOn.chain_eq (h : PassOn services query passed before mid) :
    (chain passed).ask services query before = .ok .unresolved mid := by
  have hchain : (chain (passed ++ [])).ask services query before =
      (chain []).ask services query mid := h.chain_append
  rw [List.append_nil] at hchain
  rw [hchain, ask_chain]
  rfl

theorem chain_cons_of_isFinal (h : IsFinal (r.ask services query before)) :
    (chain (r :: rest)).ask services query before = r.ask services query before := by
  rw [ask_chain, List.map_cons]
  cases hask : r.ask services query before with
  | error failure after => exact first_cons_error hask
  | ok answer after =>
      cases answer with
      | resolved answer => exact first_cons_resolved hask
      | unresolved => exact absurd hask (h after)

/-- In every list of resolvers either all pass a question on, or one of them ends the search after
those before it have passed the question on. -/
theorem passOn_or_isFinal (services : Services) (query : Query α) (resolvers : List Resolver)
    (before : World) :
    (∃ after, PassOn services query resolvers before after) ∨
      ∃ passed r rest mid, resolvers = passed ++ r :: rest ∧
        PassOn services query passed before mid ∧ IsFinal (r.ask services query mid) := by
  induction resolvers generalizing before with
  | nil => exact Or.inl ⟨before, .nil before⟩
  | cons s resolvers ih =>
      by_cases hask : ∃ mid, s.ask services query before = .ok .unresolved mid
      · rcases hask with ⟨mid, hask⟩
        rcases ih mid with ⟨after, hpass⟩ | ⟨passed, r, rest, last, hsplit, hpass, hfinal⟩
        · exact Or.inl ⟨after, .cons hask hpass⟩
        · refine Or.inr ⟨s :: passed, r, rest, last, ?_, .cons hask hpass, hfinal⟩
          rw [hsplit, List.cons_append]
      · refine Or.inr ⟨[], s, resolvers, before, rfl, .nil before, ?_⟩
        intro mid hmid
        exact hask ⟨mid, hmid⟩

theorem chain_unresolved_iff {resolvers : List Resolver} :
    (chain resolvers).ask services query before = .ok .unresolved after ↔
      PassOn services query resolvers before after := by
  constructor
  · intro hchain
    rcases passOn_or_isFinal services query resolvers before with
      ⟨last, hpass⟩ | ⟨passed, r, rest, mid, rfl, hpass, hfinal⟩
    · rw [hpass.chain_eq] at hchain
      cases hchain
      exact hpass
    · rw [hpass.chain_append, chain_cons_of_isFinal hfinal] at hchain
      exact absurd hchain (hfinal after)
  · exact PassOn.chain_eq

end Search
end Resolver
end ExprLang
