/-!
The names of objects: numbers, never used for a second object of the kind.
-/

namespace Verbs

abbrev FabricId := Nat
abbrev NicId := Nat
abbrev RegionId := Nat
abbrev CqId := Nat
abbrev QpId := Nat
abbrev ExecutorId := Nat
abbrev FutureId := Nat

end Verbs
