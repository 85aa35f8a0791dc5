import RepoAtlas.Proofs.Resolution
import RepoAtlas.Proofs.Text

/-! # Relative specifiers

From any file to any other there is a way up to the last folder they share and down from there. A
specifier that spells this way out leads back to the file: going up takes back just the components
that going down from the shared folder would have added. So a file is always found when it is asked
for in this way, however many files bear its name.
-/

namespace RepoAtlas

/-- The longest list that two lists begin with. -/
def sharedStart {α : Type} [DecidableEq α] : List α → List α → List α
  | a :: as, b :: bs => if a = b then a :: sharedStart as bs else []
  | _, _ => []

section SharedStart

variable {α : Type} [DecidableEq α]

theorem sharedStart_prefix (as bs : List α) :
    sharedStart as bs <+: as ∧ sharedStart as bs <+: bs := by
  fun_induction sharedStart as bs with
  | case1 a as bs ih => simpa using ih
  | case2 | case3 => simp

end SharedStart

namespace Resolution

variable {rooted : Bool} {above up todo : List String}

/-- Each `..` takes back one component. -/
theorem cancelDots_climb (free : ".." ∉ up) :
    cancelDots rooted (up ++ above) (List.replicate up.length ".." ++ todo) =
      cancelDots rooted above todo := by
  induction up with
  | nil => rfl
  | cons part rest ih =>
      obtain ⟨other, free⟩ : ".." ≠ part ∧ ".." ∉ rest := by simpa using free
      rw [List.length_cons, List.replicate_succ, List.cons_append, List.cons_append, cancelDots]
      · exact ih free
      · exact other.symm

end Resolution

/-! ## The text of a specifier -/

namespace Resolution

/-- The text of a way that goes up some folders and then down. -/
def spelled (up : Nat) (down : List String) : String :=
  (if up = 0 then "./" else String.join (List.replicate up "../")) ++ Path.joined down

theorem spelled_succ (up : Nat) (down : List String) :
    spelled (up + 1) down =
      "../" ++ (String.join (List.replicate up "../") ++ Path.joined down) := by
  rw [spelled, if_neg (Nat.succ_ne_zero up), List.replicate_succ, String.join_cons,
    String.append_assoc]

theorem spelled_starts (up : Nat) (down : List String) :
    "./".toList <+: (spelled up down).toList ∨ "../".toList <+: (spelled up down).toList := by
  cases up with
  | zero => exact .inl (by simp [spelled])
  | succ up => exact .inr (by simp [spelled_succ])

theorem parts_parse_climb (up : Nat) (s : String) :
    (Path.parse (String.join (List.replicate up "../") ++ s)).parts =
      List.replicate up ".." ++ (Path.parse s).parts := by
  induction up with
  | zero => simp
  | succ up ih =>
      rw [List.replicate_succ, List.replicate_succ, String.join_cons, List.cons_append, ← ih,
        String.append_assoc, (Path.parse_up_slash _).2]

theorem parse_spelled (up : Nat) {down : List String}
    (proper : ∀ part ∈ down, isComponent part = true) :
    (Path.parse (spelled up down)).anchor = .relative ∧
      (Path.parse (spelled up down)).parts = List.replicate up ".." ++ down := by
  have behind : (Path.parse (Path.joined down)).parts = down := by rw [Path.parse_joined proper]
  cases up with
  | zero =>
      have dot := Path.parse_dot_slash (Path.joined down)
      rw [behind] at dot
      exact dot
  | succ up =>
      have dots := Path.parse_up_slash (String.join (List.replicate up "../") ++ Path.joined down)
      rw [parts_parse_climb, behind] at dots
      rw [spelled_succ]
      exact dots

end Resolution

/-- No component leads up. -/
structure Path.Plain (p : Path) : Prop where
  rooted : p.anchor = .root
  free : ".." ∉ p.parts

open Resolution in
/-- Going up to a folder above and down from there ends at the file with these components. -/
theorem Path.normal_join_spelled {folder target : Path} {shared higher down : List String}
    (source : folder.Plain) (plain : target.Plain) (above : folder.parts = shared ++ higher)
    (below : target.parts = shared ++ down) :
    (folder.join (parse (spelled higher.length down))).normal = target := by
  obtain ⟨relative, parts⟩ := parse_spelled higher.length fun part member =>
    target.proper part (below ▸ List.mem_append_right shared member)
  have noDots : ".." ∉ higher := fun member =>
    source.free (above ▸ List.mem_append_right shared member)
  have noDots' : ".." ∉ down := fun member =>
    plain.free (below ▸ List.mem_append_right shared member)
  have joined : folder.join (parse (spelled higher.length down)) = _ := if_pos relative
  ext1
  · rw [normal, joined]
    exact source.rooted.trans plain.rooted.symm
  · have cancelled (rooted : Bool) :
        cancelDots rooted [] (folder.parts ++ (List.replicate higher.length ".." ++ down)) =
          target.parts := by
      calc
        _ = cancelDots rooted (higher.reverse ++ shared.reverse)
              (List.replicate higher.reverse.length ".." ++ down) := by
            rw [cancelDots_append source.free, above]
            simp
        _ = cancelDots rooted shared.reverse (down ++ []) := by
            rw [cancelDots_climb (by simpa using noDots), List.append_nil]
        _ = target.parts := by
            rw [cancelDots_append noDots', cancelDots, below]
            simp
    simp only [normal, joined, parts]
    exact cancelled _

/-- The way from the folder of one file to another, up to the last folder they share. -/
def specifierFrom (importer target : Path) : String :=
  let shared := (sharedStart importer.parent.parts target.parent.parts).length
  Resolution.spelled (importer.parent.parts.length - shared) (target.parts.drop shared)

theorem normal_join_specifierFrom {importer target : Path} (source : importer.Plain)
    (plain : target.Plain) :
    (importer.parent.join (Path.parse (specifierFrom importer target))).normal = target := by
  obtain ⟨left, right⟩ := sharedStart_prefix importer.parent.parts target.parent.parts
  obtain ⟨higher, above⟩ := left
  obtain ⟨down, below⟩ := right.trans (List.dropLast_prefix target.parts)
  have free : importer.parent.Plain :=
    ⟨source.rooted, fun member => source.free (List.dropLast_subset _ member)⟩
  have whole := Path.normal_join_spelled free plain above.symm below.symm
  simp only [specifierFrom]
  generalize sharedStart importer.parent.parts target.parent.parts = shared at above below ⊢
  have up : importer.parent.parts.length - shared.length = higher.length := by
    rw [← above, List.length_append, Nat.add_sub_cancel_left]
  have behind : target.parts.drop shared.length = down := by rw [← below, List.drop_left]
  rw [up, behind]
  exact whole

/-- A listed file is meant by the way to it from any other file, if the way keeps its ends when it
    is stripped. That other files bear its name makes no difference. -/
theorem resolve_specifierFrom {paths : List Path} {importer target : Path} (source : importer.Plain)
    (plain : target.Plain) (listed : target ∈ paths)
    (tight : Text.Tight (specifierFrom importer target)) :
    resolve (Index.ofPaths paths) (some importer) true (specifierFrom importer target) =
      some target := by
  have starts : "./".toList <+: (specifierFrom importer target).toList ∨
      "../".toList <+: (specifierFrom importer target).toList := Resolution.spelled_starts _ _
  have nonempty : specifierFrom importer target ≠ "" := by
    intro empty
    rw [empty] at starts
    revert starts
    decide
  have first : (Resolution.pointees importer (specifierFrom importer target)).find? (· ∈ paths) =
      some target := by
    rw [Resolution.pointees, normal_join_specifierFrom source plain, List.cons_append,
      List.find?_cons_of_pos (by simpa using listed)]
  rw [Resolution.resolve_ofPaths]
  simp only [Resolution.meant?, Text.strip_of_tight tight]
  rw [if_neg nonempty, if_pos ⟨trivial, .inr (.inr starts)⟩, Option.bind_some, first]
  rfl

/-- Two files of one name: one in the folder above the importing file, and one elsewhere that the
    name alone would lead to. -/
theorem resolve_specifierFrom_twins :
    (Path.parse "/r/a/deep/main.ts").Plain ∧ (Path.parse "/r/a/utils.ts").Plain ∧
      Path.parse "/r/a/utils.ts" ∈ ["/r/a/utils.ts", "/r/b/utils.ts"].map Path.parse ∧
      Text.Tight (specifierFrom (Path.parse "/r/a/deep/main.ts") (Path.parse "/r/a/utils.ts")) ∧
      resolve (Index.ofPaths (["/r/a/utils.ts", "/r/b/utils.ts"].map Path.parse))
          (some (Path.parse "/r/a/deep/main.ts")) true
          (specifierFrom (Path.parse "/r/a/deep/main.ts") (Path.parse "/r/a/utils.ts")) =
        some (Path.parse "/r/a/utils.ts") := by
  have source : (Path.parse "/r/a/deep/main.ts").Plain := ⟨by decide, by decide⟩
  have plain : (Path.parse "/r/a/utils.ts").Plain := ⟨by decide, by decide⟩
  have listed : Path.parse "/r/a/utils.ts" ∈ ["/r/a/utils.ts", "/r/b/utils.ts"].map Path.parse := by
    decide
  have tight : Text.Tight
      (specifierFrom (Path.parse "/r/a/deep/main.ts") (Path.parse "/r/a/utils.ts")) := by decide
  exact ⟨source, plain, listed, tight, resolve_specifierFrom source plain listed tight⟩

example : specifierFrom (Path.parse "/r/a/deep/main.ts") (Path.parse "/r/b/utils.ts") =
    "../../b/utils.ts" := by decide

end RepoAtlas
