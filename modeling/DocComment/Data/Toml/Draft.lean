import DocComment.Data.Value

/-! The tables of a TOML document while it is read. A table is opened by its header once; what a
value holds is closed to all later headers and keys. -/

namespace DocComment.Data.Toml

abbrev Path := List Text

/-- `alter f path` applies `f` to the table at `path` and opens the tables on the way. With
`intoLists` a list of tables is entered at its last table. -/
def alter (intoLists : Bool) (f : Table → Option Table) : Path → Table → Option Table
  | [], t => f t
  | k :: path, t =>
    match t.get? k with
    | none => (alter intoLists f path []).map fun u => t.set k (.table u)
    | some (.table u) => (alter intoLists f path u).map fun u => t.set k (.table u)
    | some (.list vs) =>
      match intoLists, vs.getLast? with
      | true, some (.table u) =>
        (alter intoLists f path u).map fun u => t.set k (.list (vs.dropLast ++ [.table u]))
      | _, _ => none
    | some _ => none

def putNew (k : Text) (v : Value) (t : Table) : Option Table :=
  match t.get? k with
  | none => some (t.set k v)
  | some _ => none

def appendTable (k : Text) (t : Table) : Option Table :=
  match t.get? k with
  | none => some (t.set k (.list [.table []]))
  | some (.list vs) => some (t.set k (.list (vs ++ [.table []])))
  | some _ => none

/-- Values that no later key reaches into. -/
def isClosed : Value → Bool
  | .table _ => true
  | .list _ => true
  | _ => false

/-- `opened` holds the tables that have a header or were opened by dotted keys of an earlier
section, `pending` those that dotted keys of the current section opened, `closed` the keys of
lists and inline tables. -/
structure Draft where
  root : Table := []
  header : Path := []
  opened : List Path := []
  pending : List Path := []
  closed : List Path := []
  deriving Inhabited

namespace Draft

def isClosedAt (d : Draft) (path : Path) : Bool := d.closed.any (·.isPrefixOf path)

def settle (d : Draft) : Draft := { d with opened := d.pending ++ d.opened, pending := [] }

def openTable (d : Draft) (path : Path) : Option Draft :=
  if d.opened.contains path || d.isClosedAt path then none
  else (alter true some path d.root).map fun root =>
    { d with root, header := path, opened := path :: d.opened }

/-- The header of a further table of a list. What the last table of the list opened is open to the
new one. -/
def openItem (d : Draft) (path : Path) : Option Draft :=
  if d.isClosedAt path then none
  else
    let outside := fun q : Path => !path.isPrefixOf q
    (alter true (appendTable (path.getLast?.getD [])) path.dropLast d.root).map fun root =>
      { d with root, header := path, opened := path :: d.opened.filter outside
               closed := d.closed.filter outside }

/-- The proper beginnings of a key, each below `header`. -/
def relayed (header key : Path) : List Path :=
  (List.range (key.length - 1)).map fun i => header ++ key.take (i + 1)

def put (d : Draft) (key : Path) (v : Value) : Option Draft :=
  let on := relayed d.header key
  if on.any d.opened.contains || d.isClosedAt (d.header ++ key.dropLast) then none
  else
    (alter true (putNew (key.getLast?.getD []) v) (d.header ++ key.dropLast) d.root).map
      fun root =>
        { d with root, pending := on ++ d.pending
                 closed := if isClosed v then (d.header ++ key) :: d.closed else d.closed }

end Draft

structure Inline where
  root : Table := []
  closed : List Path := []
  deriving Inhabited

def Inline.put (t : Inline) (key : Path) (v : Value) : Option Inline :=
  if t.closed.any (·.isPrefixOf key) then none
  else
    (alter false (putNew (key.getLast?.getD []) v) key.dropLast t.root).map fun root =>
      { root, closed := if isClosed v then key :: t.closed else t.closed }

end DocComment.Data.Toml
