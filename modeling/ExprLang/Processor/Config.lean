import ExprLang.Resolver
import ExprLang.Text.Blank

/-!
# Configuration

The settings of a processor, and their overrides in the environment.
-/

namespace ExprLang

structure Config where
  /-- Keep compiled templates. -/
  cache : Bool := true
  /-- Refuse every store. -/
  readOnly : Bool := false
  /-- A store in an unknown top-level name defines it. -/
  allowCreation : Bool := true
  deriving DecidableEq

namespace Config

/-- A switch in the environment, in any case of the ASCII letters. -/
def readSwitch? (text : String) : Option Bool :=
  let word := String.ofList ((Text.trim text.toList).map Char.toLower)
  if ["1", "on", "true", "yes"].contains word then some true
  else if ["0", "off", "false", "no"].contains word then some false
  else none

/-- The default settings with the overrides of an environment. -/
def ofEnvironment (lookup : String → Option String) : Config :=
  let default : Config := {}
  { default with
    cache := (lookup "EL_CACHE" >>= readSwitch?).getD default.cache
    readOnly := (lookup "EL_READ_ONLY" >>= readSwitch?).getD default.readOnly }

/-- What the settings mean for the resolvers. -/
def resolverOptions (config : Config) : ResolverOptions :=
  ⟨config.readOnly, config.allowCreation⟩

def outline (config : Config) : String :=
  let switch (b : Bool) := if b then "true" else "false"
  "ProcessorConfig \x7b cache: " ++ switch config.cache ++ ", read_only: " ++ switch config.readOnly
    ++ ", allow_bean_creation: " ++ switch config.allowCreation ++ " \x7d"

end Config
end ExprLang
