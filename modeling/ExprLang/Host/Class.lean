import ExprLang.Host.Function

/-!
# Classes

Classes that expressions can name: static fields, static methods and, for an enumeration,
its constants as further fields.
-/

namespace ExprLang

structure ClassDef where
  qualifiedName : String
  fields : Table Value
  methods : Table HostFunction
  enumType : Option EnumType

namespace ClassDef

def named (qualifiedName : String) : ClassDef := ⟨qualifiedName, .empty, .empty, none⟩

instance : Inhabited ClassDef := ⟨named ""⟩

def name (c : ClassDef) : String := Text.simpleName c.qualifiedName

/-- The part of the name before the last dot. -/
def package (c : ClassDef) : String := Text.packageName c.qualifiedName

def enumeration (qualifiedName : String) (constants : List String) : ClassDef :=
  { named qualifiedName with enumType := some ⟨Text.simpleName qualifiedName, constants⟩ }

def withField (c : ClassDef) (name : String) (value : Value) : ClassDef :=
  { c with fields := c.fields.insert name value }

def withMethod (c : ClassDef) (method : HostFunction) : ClassDef :=
  { c with methods := c.methods.insert method.name method }

/-- The value of a static field, or a constant of the enumeration. -/
def field? (c : ClassDef) (name : String) : Option Value :=
  c.fields.find? name <|> c.enumType.bind (·.value? name)

def method? (c : ClassDef) (name : String) : Option HostFunction := c.methods.find? name

def hasMember (c : ClassDef) (name : String) : Bool :=
  (c.field? name).isSome || (c.method? name).isSome

end ClassDef
end ExprLang
