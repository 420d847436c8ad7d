import ExprLang.Resolver.BeanProperty
import ExprLang.Resolver.ClassMember
import ExprLang.Resolver.Collection
import ExprLang.Resolver.Element
import ExprLang.Resolver.MapEntry
import ExprLang.Resolver.Name
import ExprLang.Resolver.TextMethod

/-!
# Standard resolvers

One resolver for each family of values, in the order in which they are asked.
-/

namespace ExprLang
namespace Resolver

/-- The resolvers of everything but top-level names. -/
def ofValues (readOnly : Bool) : List Resolver :=
  [classMembers, mapEntries readOnly, listElements readOnly, arrayElements readOnly,
    collectionMethods, textMethods, beanProperties readOnly]

/-- The standard resolvers. -/
def standard (options : ResolverOptions) : List Resolver :=
  names options :: ofValues options.readOnly

end Resolver
end ExprLang
