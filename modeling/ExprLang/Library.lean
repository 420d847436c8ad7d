import ExprLang.Host.Imports
import ExprLang.Library.Math

/-!
# Default classes

The classes that are defined without the host's doing, and the imports that make them
visible by their simple names.
-/

namespace ExprLang
namespace Library

def classes : ClassTable := #[
  booleanClass,
  characterClass,
  wrapper .byte "parseByte" (.byte Int8.minValue) (.byte Int8.maxValue),
  wrapper .short "parseShort" (.short Int16.minValue) (.short Int16.maxValue),
  wrapper .int "parseInt" (.int Int32.minValue) (.int Int32.maxValue),
  wrapper .long "parseLong" (.long Int64.minValue) (.long Int64.maxValue),
  floatClass,
  doubleClass,
  mathClass,
  stringClass]

def imports : Imports :=
  (classes.toList.zipIdx.foldl (fun imports (c, number) => imports.define c number)
    Imports.empty).addPackage package

end Library
end ExprLang
