/-
RouteRegistry/Catalog.lean

Catalogs: the declared types of a program in walk order.

A `Catalog` is what a pass sees of a host: the declarations, and a way to ask
again for the qualified name of one of them by its identity.  The host may not
know the answer, and its code may crash (`Lookup`).  `Catalog.ofList` answers
by the first declaration that has the identity.

An `IndexedCatalog` gives each declaration its position as identity and answers
by position.
-/
import RouteRegistry.Declaration

namespace RouteRegistry

/-- What asking for the qualified name of a declaration comes to. -/
inductive Lookup where
  | found (qualifiedName : String)
  | missing
  | crash (message : String)
  deriving DecidableEq, Inhabited

/-- What a pass sees of a host: the declared types in walk order, and the answer to a question for a
qualified name. -/
structure Catalog where
  declarations : List Declaration
  lookup : DeclId → Lookup

/-- The first declaration with the identity. -/
def findById (ds : List Declaration) (id : DeclId) : Option Declaration :=
  ds.find? fun d => d.id == id

/-- The answer that a declaration, or its absence, amounts to. -/
def Lookup.of : Option Declaration → Lookup
  | some d => .found d.qualifiedName
  | none => .missing

namespace Catalog

/-- The catalog that keeps each identity as written. -/
def ofList (ds : List Declaration) : Catalog := ⟨ds, fun id => .of (findById ds id)⟩

/-- The declarations that can stand as route targets. -/
def classLikes (c : Catalog) : List Declaration := c.declarations.filter (·.kind.isClassLike)

/-- The first class-like declaration with the simple name. -/
def findByName (c : Catalog) (name : String) : Option Declaration :=
  c.classLikes.find? fun d => d.name == name

end Catalog

/-! ### Positions as identities -/

/-- A catalog in which the identity of a declaration is its position. -/
structure IndexedCatalog where
  declarations : List Declaration
  deriving Inhabited

namespace IndexedCatalog

/-- The catalog to which nothing has been added. -/
def empty : IndexedCatalog := ⟨[]⟩

/-- The number of declarations, which is the identity that the next one gets. -/
def size (c : IndexedCatalog) : Nat := c.declarations.length

/-- The identity the next declaration gets. -/
def nextId (c : IndexedCatalog) : DeclId := ⟨.ofNat c.size⟩

/-- Appends the declaration under the next identity. -/
def push (c : IndexedCatalog) (d : Declaration) : IndexedCatalog :=
  ⟨c.declarations ++ [{ d with id := c.nextId }]⟩

/-- The declarations in this order, whatever identities they had before. -/
def ofList (ds : List Declaration) : IndexedCatalog :=
  ⟨ds.mapIdx fun i d => { d with id := ⟨.ofNat i⟩ }⟩

/-- The declaration at the position that the identity stands for. -/
def get? (c : IndexedCatalog) (id : DeclId) : Option Declaration :=
  c.declarations[id.index.toNat]?

/-- The catalog as a pass sees it; an identity behind the last position is not known. -/
def toCatalog (c : IndexedCatalog) : Catalog := ⟨c.declarations, fun id => .of (c.get? id)⟩

end IndexedCatalog

end RouteRegistry
