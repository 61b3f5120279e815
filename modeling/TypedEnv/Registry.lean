import TypedEnv.Reader

/-!
The registry says which reader a type id means.

An id without a separator means the reader that was registered last under it.  An id with one is a
union expression: its first look-up stores a union under it, and later look-ups find that same
reader.  Every reader that enters the registry gets a serial number of its own, so two look-ups
give the same instance exactly when the numbers agree.
-/

namespace TypedEnv

structure Entry where
  serial : Nat
  reader : Reader

structure Registry where
  shelf : Dict Entry
  nextSerial : Nat

namespace Registry

def empty : Registry := ⟨.empty, 0⟩

def store (registry : Registry) (id : String) (reader : Reader) : Registry :=
  ⟨registry.shelf.insert id ⟨registry.nextSerial, reader⟩, registry.nextSerial + 1⟩

def register (registry : Registry) (reader : Reader) : Registry :=
  registry.store reader.id reader

def registerAll (registry : Registry) (readers : List Reader) : Registry :=
  readers.foldl register registry

def withBuiltins (delimiter : String) : Registry :=
  empty.registerAll ((Leaf.builtins delimiter).map .leaf)

/-- The reader of an id, and the registry after the look-up.  The empty id means nothing. -/
def resolve (registry : Registry) (id : String) : Option Entry × Registry :=
  if id = "" then (none, registry)
  else match registry.shelf.get? id with
    | some entry => (some entry, registry)
    | none =>
      if isUnionId id then
        (some ⟨registry.nextSerial, .union id⟩, registry.store id (.union id))
      else (none, registry)

def contains (registry : Registry) (id : String) : Bool := registry.shelf.contains id

/-- All ids with a reader, in increasing order; union expressions that were looked up are among
them. -/
def ids (registry : Registry) : List String := registry.shelf.keys

def size (registry : Registry) : Nat := registry.shelf.size

def isEmpty (registry : Registry) : Bool := registry.shelf.isEmpty

def describe (registry : Registry) : String :=
  "ReaderRegistry \x7b ids: [" ++ Text.join ", " (registry.ids.map Text.quoted) ++ "] \x7d"

@[simp] theorem resolve_empty_id (registry : Registry) : registry.resolve "" = (none, registry) :=
  rfl

theorem resolve_snd_of_not_union (registry : Registry) {id : String} (h : isUnionId id = false) :
    (registry.resolve id).2 = registry := by
  unfold resolve
  split
  · rfl
  · split
    · rfl
    · simp [h]

theorem ids_sorted (registry : Registry) : registry.ids.Pairwise (· < ·) :=
  registry.shelf.keys_sorted

end Registry

namespace Reader

def firstPassing (test : Reader → Registry → Bool × Registry) :
    List String → Registry → Option Reader × Registry
  | [], registry => (none, registry)
  | id :: ids, registry =>
    match registry.resolve id with
    | (none, registry) => firstPassing test ids registry
    | (some entry, registry) =>
      match test entry.reader registry with
      | (true, registry) => (some entry.reader, registry)
      | (false, registry) => firstPassing test ids registry

/-- Whether a reader accepts a raw text.  A question that runs out of hops has gone round in a
circle and counts as one that no reader answers. -/
def acceptsWithin (raw : String) : (hops : Nat) → Reader → Registry → Bool × Registry
  | _, leaf own, registry => (own.accepts raw, registry)
  | 0, union _, registry => (false, registry)
  | 0, redirect _ _, registry => (false, registry)
  | hops + 1, union expression, registry =>
    match firstPassing (acceptsWithin raw hops) (unionMembers expression) registry with
    | (member, registry) => (member.isSome, registry)
  | hops + 1, redirect _ target, registry =>
    match registry.resolve target with
    | (none, registry) => (false, registry)
    | (some entry, registry) => acceptsWithin raw hops entry.reader registry

/-- The value of a raw text.  A union gives the value of its first member that accepts the text,
and the text itself if there is none. -/
def parseWithin (raw : String) : (hops : Nat) → Reader → Registry → Document × Registry
  | _, leaf own, registry => (own.parse raw, registry)
  | 0, union _, registry => (.string raw, registry)
  | 0, redirect _ _, registry => (.null, registry)
  | hops + 1, union expression, registry =>
    match firstPassing (acceptsWithin raw hops) (unionMembers expression) registry with
    | (none, registry) => (.string raw, registry)
    | (some member, registry) => parseWithin raw hops member registry
  | hops + 1, redirect _ target, registry =>
    match registry.resolve target with
    | (none, registry) => (.null, registry)
    | (some entry, registry) => parseWithin raw hops entry.reader registry

/-- Enough hops for every question that does not go round in a circle: it passes each stored reader
at most once, and between two of them at most one new union. -/
def hops (registry : Registry) : Nat := 2 * registry.size + 2

def accepts (reader : Reader) (raw : String) (registry : Registry) : Bool × Registry :=
  reader.acceptsWithin raw (hops registry) registry

def parse (reader : Reader) (raw : String) (registry : Registry) : Document × Registry :=
  reader.parseWithin raw (hops registry) registry

@[simp] theorem accepts_leaf (own : Leaf) (raw : String) (registry : Registry) :
    (Reader.leaf own).accepts raw registry = (own.accepts raw, registry) := by
  simp [accepts, hops, acceptsWithin]

@[simp] theorem parse_leaf (own : Leaf) (raw : String) (registry : Registry) :
    (Reader.leaf own).parse raw registry = (own.parse raw, registry) := by
  simp [parse, hops, parseWithin]

end Reader

end TypedEnv
