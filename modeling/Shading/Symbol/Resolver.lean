import Shading.Source.Node
import Shading.Symbol.Basic
import Shading.Table

/-!
# Resolvers

A resolver says what a node denotes. A symbol table gives two of them: one knows bare names
only, the other also the dotted paths of member accesses.

* `byPath_of_byIdentifier`: what the first finds, the second finds too.
-/

namespace Shading

/-- What a node denotes, if anything known. -/
abbrev Resolver := Node → Option Symbol

/-- The symbols that identifiers stand for. -/
abbrev SymbolTable := Table String Symbol

namespace SymbolTable

/-- Looks up bare names. -/
def byIdentifier (t : SymbolTable) : Resolver := fun n =>
  n.ident?.bind t.get?

/-- Looks up names and dotted paths. -/
def byPath (t : SymbolTable) : Resolver := fun n =>
  n.path?.bind t.get?

theorem byPath_of_byIdentifier {t : SymbolTable} {n : Node} {s : Symbol}
    (h : t.byIdentifier n = some s) : t.byPath n = some s := by
  obtain ⟨id, hid, hs⟩ := Option.bind_eq_some_iff.1 h
  rw [byPath, Node.path?_of_ident? hid]
  exact hs

end SymbolTable

/-- The two ways of reading a symbol table. -/
inductive Resolution where
  | identifiers
  | paths
deriving DecidableEq, Inhabited, Repr

namespace Resolution

/-- The resolver that reads `t` in this way. -/
def resolver : Resolution → SymbolTable → Resolver
  | identifiers, t => t.byIdentifier
  | paths, t => t.byPath

end Resolution

end Shading
