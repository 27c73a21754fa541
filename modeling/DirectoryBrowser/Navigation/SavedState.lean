/-!
# Saved location

The last location that was shown is kept between sessions. A store may be
missing or broken; browsing goes on without it.
-/

namespace DirectoryBrowser

structure NavState where
  rootUrl : String
  directory : String
  /-- Directory selected in the tree beside the table. -/
  treeDirectory : String
  entry : Option String
  deriving DecidableEq, Repr

inductive StateStore where
  | absent
  | broken
  | holding (state : Option NavState)
  deriving DecidableEq, Repr

namespace StateStore

def load : StateStore → Option NavState
  | .holding state => state
  | .absent | .broken => none

/-- The store after saving, where that works. -/
def save? (store : StateStore) (state : NavState) : Option StateStore :=
  match store with
  | .holding _ => some (.holding (some state))
  | .absent | .broken => none

end StateStore

end DirectoryBrowser
