import ConstructorCheck.Hierarchy.Derivation
/-!
# Conversion ranks

How well an argument type fits a parameter type. Equal types fit exactly; the small integers
promote to `int` and `float` to `double`; any other scalar converts to any scalar, and a class
converts to its accessible bases. Nothing else fits.

Lists of ranks, one for each argument, are compared argument by argument.
-/

namespace ConstructorCheck

/-- How well an argument fits, best first. -/
inductive ConversionRank where
  | exact
  | promotion
  | conversion
deriving DecidableEq, Repr

namespace ConversionRank

/-- The place in the order of ranks; smaller is better. -/
def cost : ConversionRank → Nat
  | exact => 0
  | promotion => 1
  | conversion => 2

/-- Whether `a` is no worse than `b` for every argument and better for one. -/
def better (a b : List ConversionRank) : Bool :=
  ((a.zip b).all fun p => p.1.cost ≤ p.2.cost) && (a.zip b).any fun p => p.1.cost < p.2.cost

end ConversionRank

/-- The rank between two different scalar types. -/
def Primitive.rankTo : Primitive → Primitive → ConversionRank
  | .bool, .int | .char, .int | .short, .int | .float, .double => .promotion
  | _, _ => .conversion

/-- The rank of an argument type for a parameter type, or `none` when it does not convert. -/
def Hierarchy.conversionRank (h : Hierarchy) (arg param : TypeRef) : Option ConversionRank :=
  if arg = param then some .exact
  else
    match arg, param with
    | .primitive p, .primitive q => some (p.rankTo q)
    | .ofClass a, .ofClass b => if h.isAccessibleBase a b then some .conversion else none
    | _, _ => none

end ConstructorCheck
