import RepoAtlas.Disk.Access
import RepoAtlas.Proofs.Resolution

/-! # Places on a disk

A path that is found leads to a place: names of folders without links and without `..`. Following a
path takes the links as they come, at most so many of them; resolving it goes through each link by
itself and stops at one that is met inside itself. The two agree on the place: a link that was met
inside itself would be followed for ever. The place is found again by its own name, so whatever
stands below a resolved folder in the tree is found under the names that lead there.
-/

namespace RepoAtlas

namespace Entry

/-- A name that an entry can have. -/
def IsName (name : String) : Prop :=
  isComponent name = true ∧ name ≠ ".." ∧ '\x00' ∉ name.toList

instance (name : String) : Decidable (IsName name) := inferInstanceAs (Decidable (_ ∧ _ ∧ _))

/-- In every folder each name is used once. -/
inductive Tidy : Entry → Prop
  | file (bytes : List UInt8) (readable : Bool) : Tidy (.file bytes readable)
  | folder (entries : Entries) (rights : Rights) : (entries.map (·.1)).Nodup →
      (∀ pair ∈ entries, IsName pair.1) → (∀ pair ∈ entries, Tidy pair.2) →
      Tidy (.folder entries rights)
  | link (target : String) : Tidy (.link target)
  | other : Tidy .other

variable {e inner : Entry}

theorem at?_cons (e : Entry) (name : String) (rest : List String) :
    e.at? (name :: rest) = (e.child? name).bind (·.at? rest) := by
  rw [at?]
  cases e.child? name <;> rfl

theorem at?_append (e : Entry) (parts more : List String) :
    e.at? (parts ++ more) = (e.at? parts).bind (·.at? more) := by
  induction parts generalizing e with
  | nil => rfl
  | cons name rest ih =>
      rw [List.cons_append, at?_cons, at?_cons]
      cases e.child? name with
      | none => rfl
      | some inner => exact ih inner

theorem at?_concat (e : Entry) (parts : List String) (name : String) :
    e.at? (parts ++ [name]) = (e.at? parts).bind (·.child? name) := by
  rw [at?_append]
  cases e.at? parts with
  | none => rfl
  | some inner =>
      rw [Option.bind_some, Option.bind_some, at?_cons]
      cases inner.child? name <;> rfl

theorem folder_of_child? {name : String} (found : e.child? name = some inner) :
    ∃ entries rights, e = .folder entries rights ∧ entries.lookup name = some inner := by
  cases e with
  | folder entries rights => exact ⟨entries, rights, rfl, found⟩
  | file bytes readable => simp [child?, entries] at found
  | link target => simp [child?, entries] at found
  | other => simp [child?, entries] at found

theorem folder_of_at? {parts rest : List String} {name : String}
    (found : e.at? (parts ++ name :: rest) = some inner) :
    ∃ entries rights next, e.at? parts = some (.folder entries rights) ∧
      entries.lookup name = some next ∧ next.at? rest = some inner := by
  rw [at?_append] at found
  obtain ⟨middle, here, below⟩ := Option.bind_eq_some_iff.mp found
  rw [at?_cons] at below
  obtain ⟨next, child, behind⟩ := Option.bind_eq_some_iff.mp below
  obtain ⟨entries, rights, rfl, listed⟩ := folder_of_child? child
  exact ⟨entries, rights, next, here, listed, behind⟩

theorem Tidy.of_lookup {entries : Entries} {rights : Rights} (tidy : Tidy (.folder entries rights))
    {name : String} (found : entries.lookup name = some e) : IsName name ∧ e.Tidy := by
  cases tidy with
  | folder _ _ _ names inner =>
      exact ⟨names (name, e) (mem_of_lookup found), inner (name, e) (mem_of_lookup found)⟩

/-- A tidy entry leads to tidy entries by proper names. -/
theorem Tidy.of_at? (tidy : e.Tidy) {parts : List String} (found : e.at? parts = some inner) :
    (∀ part ∈ parts, IsName part) ∧ inner.Tidy := by
  induction parts generalizing e with
  | nil =>
      cases found
      exact ⟨by simp, tidy⟩
  | cons name rest ih =>
      rw [at?_cons] at found
      obtain ⟨next, child, behind⟩ := Option.bind_eq_some_iff.mp found
      obtain ⟨entries, rights, rfl, listed⟩ := folder_of_child? child
      obtain ⟨named, tidy⟩ := tidy.of_lookup listed
      obtain ⟨names, below⟩ := ih tidy behind
      exact ⟨List.forall_mem_cons.mpr ⟨named, names⟩, below⟩

/-! ## Entries that can be reached -/

theorem reach?_cons (e : Entry) (name : String) (rest : List String) :
    e.reach? (name :: rest) =
      if e.isSearched then (e.child? name).bind (·.reach? rest) else none := by
  rw [reach?]
  cases e.child? name <;> rfl

theorem reach?_append (e : Entry) (parts more : List String) :
    e.reach? (parts ++ more) = (e.reach? parts).bind (·.reach? more) := by
  induction parts generalizing e with
  | nil => rfl
  | cons name rest ih =>
      rw [List.cons_append, reach?_cons, reach?_cons]
      split
      · cases e.child? name with
        | none => rfl
        | some inner => exact ih inner
      · rfl

theorem reach?_below {parts : List String} {entries : Entries} {rights : Rights}
    (found : e.reach? parts = some (.folder entries rights)) (open' : rights.search = true)
    (name : String) : e.reach? (parts ++ [name]) = entries.lookup name := by
  rw [reach?_append, found, Option.bind_some, reach?_cons, isSearched, if_pos open']
  cases listed : entries.lookup name <;> simp [child?, Entry.entries, listed, reach?]

theorem at?_of_reach? {parts : List String} (found : e.reach? parts = some inner) :
    e.at? parts = some inner := by
  induction parts generalizing e with
  | nil => exact found
  | cons name rest ih =>
      rw [reach?_cons] at found
      split at found
      · obtain ⟨next, child, behind⟩ := Option.bind_eq_some_iff.mp found
        rw [at?_cons, child]
        exact ih behind
      · cases found

/-- What can be reached lies in folders that can be reached and searched. -/
theorem folder_of_reach? {parts rest : List String} {name : String}
    (found : e.reach? (parts ++ name :: rest) = some inner) :
    ∃ entries rights next, e.reach? parts = some (.folder entries rights) ∧ rights.search = true ∧
      entries.lookup name = some next ∧ next.reach? rest = some inner := by
  rw [reach?_append] at found
  obtain ⟨middle, here, below⟩ := Option.bind_eq_some_iff.mp found
  rw [reach?_cons] at below
  split at below
  · rename_i searched
    obtain ⟨next, child, behind⟩ := Option.bind_eq_some_iff.mp below
    obtain ⟨entries, rights, rfl, listed⟩ := folder_of_child? child
    exact ⟨entries, rights, next, here, searched, listed, behind⟩
  · cases below

end Entry

namespace Disk

open Entry

variable {d : Disk}

/-- The names lead to an entry that can be reached and is no link, and none of them is `..`. -/
structure Settled (d : Disk) (place : List String) (e : Entry) : Prop where
  reached : d.root.reach? place = some e
  names : ∀ part ∈ place, isComponent part = true ∧ part ≠ ".."
  noLink : ∀ target, e ≠ .link target

theorem Settled.found {place : List String} {e : Entry} (settled : d.Settled place e) :
    d.at? place = some e :=
  at?_of_reach? settled.reached

theorem Settled.down {place : List String} {e : Entry} (settled : d.Settled place e) :
    ".." ∉ place :=
  fun member => (settled.names ".." member).2 rfl

theorem settled_root (d : Disk) : d.Settled [] d.root :=
  ⟨rfl, by simp, fun _ => Entry.noConfusion⟩

theorem Settled.above {place : List String} {e : Entry} (settled : d.Settled place e) :
    ∃ above, d.Settled place.dropLast above := by
  rcases List.eq_nil_or_concat place with rfl | ⟨front, last, rfl⟩
  · exact ⟨e, settled⟩
  · rw [List.concat_eq_append] at settled ⊢
    obtain ⟨entries, rights, next, here, -⟩ := folder_of_reach? settled.reached
    rw [List.dropLast_concat]
    exact ⟨_, here, fun part member => settled.names part (List.mem_append_left _ member),
      fun _ => Entry.noConfusion⟩

section Step

variable {links : Nat} {reached rest : List String} {name : String} {entries : Entries}
  {rights : Rights} {e : Entry}

theorem Settled.below (settled : d.Settled reached (.folder entries rights))
    (open' : rights.search = true) (listed : entries.lookup name = some e)
    (named : isComponent name = true ∧ name ≠ "..") (noLink : ∀ target, e ≠ .link target) :
    d.Settled (reached ++ [name]) e where
  reached := (reach?_below settled.reached open' name).trans listed
  names := by
    intro part member
    rcases List.mem_append.mp member with old | new
    · exact settled.names part old
    · exact List.mem_singleton.mp new ▸ named
  noLink := noLink

theorem Settled.linkAt?_below (settled : d.Settled reached (.folder entries rights))
    (open' : rights.search = true) (listed : entries.lookup name = some e) :
    d.linkAt? (reached ++ [name]) = match e with
      | .link target => some target
      | _ => none := by
  rw [linkAt?, (reach?_below settled.reached open' name).trans listed]
  cases e <;> rfl

theorem follow_child (here : d.at? reached = some (.folder entries rights))
    (open' : rights.search = true) (dots : name ≠ "..") (listed : entries.lookup name = some e)
    (noLink : ∀ target, e ≠ .link target) :
    d.follow links reached (name :: rest) = d.follow links (reached ++ [name]) rest := by
  rw [follow, here]
  simp only [open', Bool.not_true, Bool.false_eq_true, dots, if_false, listed]

end Step

/-! ## Links on the way -/

/-- The folder from which the target of a link in a folder is followed. -/
def baseOf (folder : List String) (target : String) : List String :=
  if (Path.parse target).isAbsolute then [] else folder

/-- Names lead from one place to another, through so many links. -/
inductive Leads (d : Disk) : Nat → List String → List String → List String → Prop
  | here (place : List String) : Leads d 0 place [] place
  | up {n : Nat} {place rest goal : List String} (way : Leads d n place.dropLast rest goal) :
      Leads d n place (".." :: rest) goal
  | down {n : Nat} {place rest goal : List String} {name : String} (dots : name ≠ "..")
      (noLink : d.linkAt? (place ++ [name]) = none) (way : Leads d n (place ++ [name]) rest goal) :
      Leads d n place (name :: rest) goal
  | link {m n : Nat} {place rest middle goal : List String} {name target : String}
      (dots : name ≠ "..") (link : d.linkAt? (place ++ [name]) = some target)
      (inside : Leads d m (baseOf place target) (Path.parse target).parts middle)
      (way : Leads d n middle rest goal) : Leads d (m + n + 1) place (name :: rest) goal

section Leads

variable {m n : Nat} {place goal : List String}

/-- Names lead to one place only, and through a certain number of links. -/
theorem Leads.unique {todo goal' : List String} (way : d.Leads n place todo goal)
    (way' : d.Leads m place todo goal') : n = m ∧ goal = goal' := by
  induction way generalizing m goal' with
  | here => cases way' with | here => exact ⟨rfl, rfl⟩
  | up way ih =>
      cases way' with
      | up way' => exact ih way'
      | down dots => exact absurd rfl dots
      | link dots => exact absurd rfl dots
  | down dots noLink way ih =>
      cases way' with
      | up => exact absurd rfl dots
      | down _ _ way' => exact ih way'
      | link _ link => cases noLink.symm.trans link
  | link dots link inside way ihInside ih =>
      cases way' with
      | up => exact absurd rfl dots
      | down _ noLink => cases noLink.symm.trans link
      | link _ link' inside' way' =>
          cases link.symm.trans link'
          obtain ⟨rfl, rfl⟩ := ihInside inside'
          obtain ⟨rfl, rfl⟩ := ih way'
          exact ⟨rfl, rfl⟩

theorem Leads.split {first rest : List String} (way : d.Leads n place (first ++ rest) goal) :
    ∃ m k middle, d.Leads m place first middle ∧ d.Leads k middle rest goal := by
  induction first generalizing n place with
  | nil => exact ⟨0, n, place, .here place, way⟩
  | cons name more ih =>
      cases way with
      | up way =>
          obtain ⟨m, k, middle, before, behind⟩ := ih way
          exact ⟨m, k, middle, .up before, behind⟩
      | down dots noLink way =>
          obtain ⟨m, k, middle, before, behind⟩ := ih way
          exact ⟨m, k, middle, .down dots noLink before, behind⟩
      | link dots link inside way =>
          obtain ⟨m, k, middle, before, behind⟩ := ih way
          exact ⟨_, k, middle, .link dots link inside before, behind⟩

theorem resolveFrom_plain {met : List (List String)} {name : String} {rest : List String}
    (dots : name ≠ "..") (noLink : d.linkAt? (place ++ [name]) = none) :
    d.resolveFrom met place (name :: rest) = d.resolveFrom met (place ++ [name]) rest := by
  rw [Disk.resolveFrom, if_neg dots]
  dsimp only
  split
  · rfl
  · rename_i link
    cases noLink.symm.trans link

theorem resolveFrom_link {met : List (List String)} {name target : String} {rest : List String}
    (dots : name ≠ "..") (link : d.linkAt? (place ++ [name]) = some target)
    (unmet : place ++ [name] ∉ met) :
    d.resolveFrom met place (name :: rest) =
      match d.resolveFrom ((place ++ [name]) :: met) (baseOf place target)
        (Path.parse target).parts with
      | (middle, true) => d.resolveFrom met middle rest
      | (middle, false) => (middle ++ rest, false) := by
  rw [Disk.resolveFrom, if_neg dots]
  dsimp only
  split
  · rename_i noLink
    cases noLink.symm.trans link
  · rename_i link'
    cases link.symm.trans link'
    rw [dif_neg unmet]
    rfl

theorem resolveFrom_met {met : List (List String)} {name target : String} {rest : List String}
    (dots : name ≠ "..") (link : d.linkAt? (place ++ [name]) = some target)
    (known : place ++ [name] ∈ met) :
    d.resolveFrom met place (name :: rest) = (place ++ [name] ++ rest, false) := by
  rw [Disk.resolveFrom, if_neg dots]
  dsimp only
  split
  · rename_i noLink
    cases noLink.symm.trans link
  · rw [dif_pos known]

/-- Where names lead somewhere, they are resolved to that place. No link in `met` is on the way if
    each of them leads through at least as many links as the way does. -/
theorem Leads.resolveFrom {todo : List String} {met : List (List String)}
    (way : d.Leads n place todo goal)
    (apart : ∀ known ∈ met, ∀ target, d.linkAt? known = some target → ∀ k end',
      d.Leads k (baseOf known.dropLast target) (Path.parse target).parts end' → n ≤ k) :
    d.resolveFrom met place todo = (goal, true) := by
  induction way generalizing met with
  | here => rw [Disk.resolveFrom]
  | up way ih =>
      rw [Disk.resolveFrom, if_pos rfl]
      exact ih apart
  | down dots noLink way ih =>
      rw [resolveFrom_plain dots noLink]
      exact ih apart
  | @link m n place rest middle goal name target dots link inside way ihInside ih =>
      have base : (place ++ [name]).dropLast = place := List.dropLast_concat
      have unmet : place ++ [name] ∉ met := by
        intro known
        have more := apart _ known target link m middle (base.symm ▸ inside)
        omega
      have inner : d.resolveFrom ((place ++ [name]) :: met) (baseOf place target)
          (Path.parse target).parts = (middle, true) := by
        apply ihInside
        intro known member other isLink k end' leads
        rcases List.mem_cons.mp member with rfl | old
        · cases link.symm.trans isLink
          rw [base] at leads
          exact Nat.le_of_eq (inside.unique leads).1
        · have more := apart known old other isLink k end' leads
          omega
      rw [resolveFrom_link dots link unmet, inner]
      refine ih fun known member other isLink k end' leads => ?_
      have more := apart known member other isLink k end' leads
      omega

end Leads

/-! ## Ways that end -/

/-- Names are followed to the end, with so many links to spare. -/
inductive Ends (d : Disk) : Nat → List String → List String → List String × Entry → Prop
  | here {links : Nat} {reached : List String} {e : Entry} (there : d.at? reached = some e) :
      Ends d links reached [] (reached, e)
  | up {links : Nat} {reached rest : List String} {goal : List String × Entry} {entries : Entries}
      {rights : Rights} (folder : d.at? reached = some (.folder entries rights))
      (on : Ends d links reached.dropLast rest goal) : Ends d links reached (".." :: rest) goal
  | down {links : Nat} {reached rest : List String} {name : String} {goal : List String × Entry}
      {entries : Entries} {rights : Rights} {inner : Entry}
      (folder : d.at? reached = some (.folder entries rights)) (open' : rights.search = true)
      (dots : name ≠ "..") (listed : entries.lookup name = some inner)
      (noLink : ∀ target, inner ≠ .link target) (on : Ends d links (reached ++ [name]) rest goal) :
      Ends d links reached (name :: rest) goal
  | link {links : Nat} {reached rest : List String} {name target : String}
      {goal : List String × Entry} {entries : Entries} {rights : Rights}
      (folder : d.at? reached = some (.folder entries rights)) (open' : rights.search = true)
      (dots : name ≠ "..") (listed : entries.lookup name = some (.link target))
      (on : Ends d links (baseOf reached target) ((Path.parse target).parts ++ rest) goal) :
      Ends d (links + 1) reached (name :: rest) goal

theorem ends_of_follow (links : Nat) (reached todo : List String) {goal : List String × Entry}
    (found : d.follow links reached todo = .ok goal) : d.Ends links reached todo goal := by
  match todo with
  | [] =>
      rw [follow] at found
      cases there : d.at? reached with
      | none => simp [there] at found
      | some e =>
          obtain rfl : (reached, e) = goal := by simpa [there] using found
          exact .here there
  | name :: rest =>
      rw [follow] at found
      cases here : d.at? reached with
      | none => simp [here] at found
      | some start =>
          cases start with
          | file | link | other => simp [here] at found
          | folder entries rights =>
              cases open' : rights.search with
              | false => simp [here, open'] at found
              | true =>
                  simp only [here, open', Bool.not_true, Bool.false_eq_true, if_false] at found
                  by_cases dots : name = ".."
                  · subst dots
                    exact .up here (ends_of_follow links _ rest (by simpa using found))
                  · simp only [dots, if_false] at found
                    cases listed : entries.lookup name with
                    | none => simp [listed] at found
                    | some inner =>
                        cases inner with
                        | link target =>
                            cases links with
                            | zero => simp [listed] at found
                            | succ links =>
                                simp only [listed] at found
                                exact .link here open' dots listed (ends_of_follow links _ _ found)
                        | file | folder | other =>
                            exact .down here open' dots listed (fun _ => Entry.noConfusion)
                              (ends_of_follow links _ rest (by simpa [listed] using found))
termination_by (links, todo.length)

/-- A way that ends does so at a settled place. -/
theorem Ends.leads {todo : List String} {goal : List String × Entry} {start : Entry}
    (ends : d.Ends links reached todo goal) (settled : d.Settled reached start)
    (proper : ∀ part ∈ todo, isComponent part = true) :
    d.Settled goal.1 goal.2 ∧ ∃ n, d.Leads n reached todo goal.1 := by
  induction ends generalizing start with
  | here there =>
      cases settled.found.symm.trans there
      exact ⟨settled, 0, .here _⟩
  | up folder _ ih =>
      cases settled.found.symm.trans folder
      obtain ⟨above, settled'⟩ := settled.above
      obtain ⟨ended, n, way⟩ := ih settled' (List.forall_mem_cons.mp proper).2
      exact ⟨ended, n, .up way⟩
  | down folder open' dots listed noLink _ ih =>
      cases settled.found.symm.trans folder
      obtain ⟨named, proper⟩ := List.forall_mem_cons.mp proper
      have link := settled.linkAt?_below open' listed
      obtain ⟨ended, n, way⟩ := ih (settled.below open' listed ⟨named, dots⟩ noLink) proper
      refine ⟨ended, n, .down dots (link.trans ?_) way⟩
      split
      · exact absurd rfl (noLink _)
      · rfl
  | @link _ reached _ _ target _ _ _ folder open' dots listed _ ih =>
      cases settled.found.symm.trans folder
      obtain ⟨-, proper⟩ := List.forall_mem_cons.mp proper
      obtain ⟨f, base⟩ : ∃ f, d.Settled (baseOf reached target) f := by
        rw [baseOf]
        split
        · exact ⟨_, settled_root d⟩
        · exact ⟨_, settled⟩
      have proper' : ∀ part ∈ (Path.parse target).parts ++ _, isComponent part = true :=
        List.forall_mem_append.mpr ⟨(Path.parse target).proper, proper⟩
      obtain ⟨ended, n, way⟩ := ih base proper'
      obtain ⟨m, k, middle, inside, behind⟩ := way.split
      exact ⟨ended, _, .link dots (settled.linkAt?_below open' listed) inside behind⟩

/-- No name of a tidy tree holds a NUL, so no way that ends goes by one. -/
theorem Ends.free (tidy : d.root.Tidy) {todo : List String} {goal : List String × Entry}
    (ends : d.Ends links reached todo goal) : ∀ part ∈ todo, '\x00' ∉ part.toList := by
  induction ends with
  | here => simp
  | up _ _ ih => exact List.forall_mem_cons.mpr ⟨by decide, ih⟩
  | down folder _ _ listed _ _ ih =>
      exact List.forall_mem_cons.mpr ⟨((tidy.of_at? folder).2.of_lookup listed).1.2.2, ih⟩
  | link folder _ _ listed _ ih =>
      exact List.forall_mem_cons.mpr ⟨((tidy.of_at? folder).2.of_lookup listed).1.2.2,
        (List.forall_mem_append.mp ih).2⟩

/-- Names of the tree other than `..` are followed one by one, as far as folders may be searched. -/
theorem follow_of_at? (links : Nat) (reached todo : List String) {start e : Entry}
    (here : d.at? reached = some start) (found : start.at? todo = some e) (plain : ".." ∉ todo)
    (noLink : ∀ target, e ≠ .link target) :
    d.follow links reached todo = match start.reach? todo with
      | some e => .ok (reached ++ todo, e)
      | none => .error .denied := by
  induction todo generalizing reached start with
  | nil =>
      rw [follow, here, reach?]
      simp
  | cons name rest ih =>
      obtain ⟨dots, plain⟩ : ".." ≠ name ∧ ".." ∉ rest := by simpa using plain
      rw [at?_cons] at found
      obtain ⟨next, child, below⟩ := Option.bind_eq_some_iff.mp found
      obtain ⟨entries, rights, rfl, listed⟩ := folder_of_child? child
      -- Nothing lies behind a link, so a link would be the entry itself.
      have through : ∀ target, next ≠ .link target := by
        rintro target rfl
        cases rest with
        | nil =>
            cases below
            exact noLink target rfl
        | cons last more => simp [Entry.at?, child?, Entry.entries] at below
      have next' : d.at? (reached ++ [name]) = some next := by
        rw [at?, at?_concat, show d.root.at? reached = some _ from here]
        exact listed
      rw [reach?_cons]
      cases open' : rights.search with
      | false =>
          rw [follow, here]
          simp [open', isSearched]
      | true =>
          rw [follow_child here open' dots.symm listed through, ih _ next' below plain, child]
          simp [open', isSearched]

theorem hasNul_iff {p : Path} : p.hasNul = true ↔ ∃ part ∈ p.parts, '\x00' ∈ part.toList := by
  rw [Path.hasNul, List.contains_iff_mem, ← Path.mem_joined (by decide), Path.text]
  split
  · rename_i dot
    obtain ⟨-, empty⟩ : p.anchor = .relative ∧ p.parts = [] := by simpa using dot
    rw [empty]
    decide
  · cases p.anchor <;> simp [Anchor.text]

section Find

variable {p : Path} {place : List String} {e : Entry}

/-- What stands at the end of plain names in the tree is found there, if it can be reached. -/
theorem find_of_at? (absolute : p.isAbsolute = true) (found : d.at? p.parts = some e)
    (plain : ".." ∉ p.parts) (noLink : ∀ target, e ≠ .link target) :
    d.find p = match d.root.reach? p.parts with
      | some e => .ok (p.parts, e)
      | none => .error .denied := by
  rw [find, Disk.absolute, if_pos absolute]
  exact follow_of_at? mostLinks [] p.parts rfl found plain noLink

theorem find_of_reach? (absolute : p.isAbsolute = true) (reached : d.root.reach? p.parts = some e)
    (plain : ".." ∉ p.parts) (noLink : ∀ target, e ≠ .link target) :
    d.find p = .ok (p.parts, e) := by
  rw [find_of_at? absolute (at?_of_reach? reached) plain noLink, reached]

theorem settled_of_find (found : d.find p = .ok (place, e)) : d.Settled place e :=
  ((ends_of_follow mostLinks [] _ found).leads (settled_root d) (d.absolute p).proper).1

/-- A path that is found is resolved to the place where it is found. -/
theorem resolve_of_find (plain : p.hasNul = false) (found : d.find p = .ok (place, e)) :
    ∃ q, d.resolve p = .ok q ∧ q.anchor = .root ∧ q.parts = place := by
  obtain ⟨settled, n, way⟩ :=
    (ends_of_follow mostLinks [] _ found).leads (settled_root d) (d.absolute p).proper
  let q : Path := ⟨.root, place, fun part member => (settled.names part member).1⟩
  have resolved : d.resolveFrom [] [] (d.absolute p).parts = (place, true) :=
    way.resolveFrom (by simp)
  have kept : Resolution.cancelDots true [] place = place := by
    rw [← List.append_nil place, Resolution.cancelDots_append settled.down, Resolution.cancelDots]
    simp
  have shown : pathOf place = q := by
    rw [pathOf, show "/" ++ Path.joined place = q.text by simp [Path.text, q, Anchor.text],
      Path.parse_text]
  have again : d.find q = .ok (place, e) :=
    find_of_reach? rfl settled.reached settled.down settled.noLink
  refine ⟨q, ?_, rfl, rfl⟩
  simp only [resolve, plain, Bool.false_eq_true, if_false, resolved, kept, shown, again]

theorem hasNul_of_find (tidy : d.root.Tidy) (found : d.find p = .ok (place, e)) :
    p.hasNul = false := by
  have free := (ends_of_follow mostLinks [] _ found).free tidy
  rw [Bool.eq_false_iff]
  intro nul
  obtain ⟨part, member, inside⟩ := hasNul_iff.mp nul
  refine free part ?_ inside
  rw [absolute]
  split
  · exact member
  · rename_i relative
    have anchor : p.anchor = .relative := by simpa [Path.isAbsolute] using relative
    rw [Path.join, if_pos anchor]
    exact List.mem_append_right _ member

theorem lookUp_of_short (plain : p.hasNul = false) (short : p.text.utf8ByteSize ≤ longestPath) :
    d.lookUp p = match d.find p with
      | .ok (_, e) => .ok (some e)
      | .error problem => if problem.isAbsence then .ok none else .error problem := by
  have free : ¬p.hasNul = true := Bool.eq_false_iff.mp plain
  exact (if_neg free).trans (if_neg (Nat.not_lt.mpr short))

/-- A path that is looked up and found has no NUL and is not too long. -/
theorem lookUp_eq_some_iff :
    d.lookUp p = .ok (some e) ↔ p.hasNul = false ∧ p.text.utf8ByteSize ≤ longestPath ∧
      ∃ place, d.find p = .ok (place, e) := by
  rw [lookUp]
  cases p.hasNul with
  | true => simp
  | false =>
      by_cases long : longestPath < p.text.utf8ByteSize
      · simp [long, Nat.not_le.mpr long]
      · simp only [Bool.false_eq_true, if_false, long, true_and, Nat.not_lt.mp long]
        cases d.find p with
        | ok found => simp [Prod.ext_iff]
        | error problem => cases absent : problem.isAbsence <;> simp [absent]

theorem isFolder_eq_true_iff :
    d.isFolder p = .ok true ↔ p.hasNul = false ∧ p.text.utf8ByteSize ≤ longestPath ∧
      ∃ place entries rights, d.find p = .ok (place, .folder entries rights) := by
  have looked : d.isFolder p = .ok true ↔ ∃ entries rights,
      d.lookUp p = .ok (some (.folder entries rights)) := by
    rw [isFolder]
    cases d.lookUp p with
    | error problem => simp [Except.map]
    | ok e =>
        cases e with
        | none => simp [Except.map]
        | some e => cases e <;> simp [Except.map]
  simp only [looked, lookUp_eq_some_iff]
  constructor
  · rintro ⟨entries, rights, plain, short, place, found⟩
    exact ⟨plain, short, place, entries, rights, found⟩
  · rintro ⟨plain, short, place, entries, rights, found⟩
    exact ⟨entries, rights, plain, short, place, found⟩

/-- A folder that is found is told to be one, unless its path is too long to be asked for. -/
theorem isFolder_of_find (tidy : d.root.Tidy) {entries : Entries} {rights : Rights}
    (found : d.find p = .ok (place, .folder entries rights)) :
    d.isFolder p =
      if longestPath < p.text.utf8ByteSize then .error .tooLong else .ok true := by
  rw [isFolder, lookUp, hasNul_of_find tidy found, found]
  simp only [Bool.false_eq_true, if_false]
  split <;> rfl

/-- What the topmost folder does not list is not there. -/
theorem hasEntry_of_unlisted {name : String} (parts : (d.absolute p).parts = [name])
    (unlisted : d.entries.lookup name = none) (down : name ≠ "..")
    (fits : name.utf8ByteSize ≤ longestName) (short : p.text.utf8ByteSize ≤ longestPath) :
    d.hasEntry p = .ok false := by
  have top : d.at? [] = some (.folder d.entries .full) := rfl
  have missing : d.find p = .error .missing := by
    rw [find, parts, follow, top]
    simp [unlisted, down, Rights.full, Nat.not_lt.mpr fits]
  rw [hasEntry, lookUp, missing, if_neg (Nat.not_lt.mpr short)]
  cases p.hasNul <;> rfl

end Find

/-! ## A disk with one folder -/

def holding (entries : Entries) (rights : Rights) : Disk where
  entries := [("r", .folder entries rights)]
  here := Path.bare .root

variable {entries : Entries} {rights : Rights}

theorem find_holding :
    (holding entries rights).find (Path.parse "/r") = .ok (["r"], .folder entries rights) :=
  find_of_reach? (by decide) rfl (by decide) fun _ => Entry.noConfusion

theorem isFolder_holding : (holding entries rights).isFolder (Path.parse "/r") = .ok true :=
  isFolder_eq_true_iff.mpr ⟨by decide, by decide, _, _, _, find_holding⟩

theorem resolve_holding :
    (holding entries rights).resolve (Path.parse "/r") = .ok (Path.parse "/r") := by
  obtain ⟨q, resolved, anchor, parts⟩ :=
    resolve_of_find (by decide) (@find_holding entries rights)
  rw [resolved]
  exact congrArg _ (Path.ext anchor parts)

theorem tidy_holding (tidy : (Entry.folder entries rights).Tidy) :
    (holding entries rights).root.Tidy :=
  .folder _ _ (List.nodup_singleton _) (List.forall_mem_singleton.mpr (show IsName "r" by decide))
    (List.forall_mem_singleton.mpr tidy)

end Disk

end RepoAtlas
