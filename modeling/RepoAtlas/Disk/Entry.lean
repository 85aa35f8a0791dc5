import RepoAtlas.Path

/-! # Trees of files

A disk is a tree of named entries. Links are kept as the texts they point to; what they mean depends
on where they are met.
-/

namespace RepoAtlas

/-- What may be done with a folder. -/
structure Rights where
  /-- Its names can be listed. -/
  list : Bool
  /-- What it holds can be reached by name. -/
  search : Bool
  deriving DecidableEq, Repr

namespace Rights

/-- Everything may be done. -/
def full : Rights := { list := true, search := true }

/-- Names are only of use to those who know them. -/
def unlisted : Rights := { list := false, search := true }

end Rights

/-- What a name in a folder stands for. -/
inductive Entry where
  | file (bytes : List UInt8) (readable : Bool)
  | folder (entries : List (String × Entry)) (rights : Rights)
  | link (target : String)
  /-- Neither a file nor a folder nor a link, such as a pipe. -/
  | other

/-- The entries of a folder. -/
abbrev Entries := List (String × Entry)

namespace Entry

/-- The entries of a folder, none of anything else. -/
def entries : Entry → Entries
  | .folder entries _ => entries
  | _ => []

/-- The entry of a name in a folder. -/
def child? (name : String) (e : Entry) : Option Entry := e.entries.lookup name

/-- The entry at the end of a chain of names. -/
def at? : Entry → List String → Option Entry
  | e, [] => some e
  | e, name :: rest =>
    match e.child? name with
    | some inner => inner.at? rest
    | none => none

/-- Can what the entry holds be reached by name? -/
def isSearched : Entry → Bool
  | .folder _ rights => rights.search
  | _ => false

/-- The entry at the end of a chain of names, if it can be reached by them. -/
def reach? : Entry → List String → Option Entry
  | e, [] => some e
  | e, name :: rest =>
    if e.isSearched then
      match e.child? name with
      | some inner => inner.reach? rest
      | none => none
    else none

mutual

/-- The places of all links. -/
def linkPlaces : Entry → List (List String)
  | .folder entries _ => linkPlacesIn entries
  | .link _ => [[]]
  | .file _ _ => []
  | .other => []

/-- The places of all links at and below the entries of a folder. -/
def linkPlacesIn : Entries → List (List String)
  | [] => []
  | (name, e) :: rest => (linkPlaces e).map (name :: ·) ++ linkPlacesIn rest

end

theorem mem_linkPlacesIn {entries : Entries} {name : String} {e : Entry} {place : List String}
    (listed : entries.lookup name = some e) (inside : place ∈ e.linkPlaces) :
    name :: place ∈ linkPlacesIn entries := by
  induction entries with
  | nil => cases listed
  | cons pair rest ih =>
      obtain ⟨n, first⟩ := pair
      rw [linkPlacesIn, List.mem_append]
      rw [List.lookup_cons] at listed
      split at listed
      · rename_i same
        obtain rfl : name = n := by simpa using same
        cases listed
        exact .inl (List.mem_map_of_mem inside)
      · exact .inr (ih listed)

/-- A link that can be reached is among the places of all links. -/
theorem mem_linkPlaces {e : Entry} {place : List String} {target : String}
    (found : e.reach? place = some (.link target)) : place ∈ e.linkPlaces := by
  induction place generalizing e with
  | nil =>
      cases found
      simp [linkPlaces]
  | cons name rest ih =>
      cases e with
      | folder entries rights =>
          rw [reach?] at found
          split at found
          · split at found
            · rename_i inner listed
              exact mem_linkPlacesIn listed (ih found)
            · cases found
          · cases found
      | file bytes readable => simp [reach?, isSearched] at found
      | link target => simp [reach?, isSearched] at found
      | other => simp [reach?, isSearched] at found

/-- What a name stands for once an entry is put there. A folder that is put where a folder is keeps
    the entries there. -/
def replacing (new : Entry) (old : Option Entry) : Entry :=
  match new, old with
  | .folder [] rights, some (.folder entries _) => .folder entries rights
  | new, _ => new

end Entry

/-- Puts an entry under a name. -/
def Entries.set (name : String) (new : Entry) : Entries → Entries
  | [] => [(name, new.replacing none)]
  | (n, old) :: rest =>
    if n = name then (n, new.replacing (some old)) :: rest
    else (n, old) :: Entries.set name new rest

/-- Puts an entry at the end of a chain of names; folders on the way are made as needed. -/
def Entries.insert (new : Entry) : List String → Entries → Entries
  | [], entries => entries
  | [name], entries => entries.set name new
  | name :: rest, entries =>
    let (inner, rights) :=
      match entries.lookup name with
      | some (.folder inner rights) => (inner, rights)
      | _ => ([], .full)
    (entries.filter (·.1 != name)) ++ [(name, .folder (Entries.insert new rest inner) rights)]

end RepoAtlas
