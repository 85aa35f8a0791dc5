import RepoAtlas.Proofs.Resolution

/-! # Resolving among other paths

A specifier is looked for in four ways, one after the other, and the first way that leads to a path
decides. More paths never take a hit away, although they may lead to it by an earlier way, and hits
do not depend on the order of the paths or on how often they are listed. Which path is meant may
depend on the order, but not if the specifier points to it, and not if its last part names it and
every name is borne by one path only.
-/

namespace RepoAtlas

section LastNamed

variable {paths : List Path} {name : String} {p : Path}

theorem isSome_lastNamed?_iff :
    (lastNamed? paths name).isSome = true ↔ ∃ p ∈ paths, p.name = name := by
  simp [lastNamed?]

/-- No two of the paths bear one name. -/
def ApartByName (paths : List Path) : Prop := ∀ p ∈ paths, ∀ q ∈ paths, p.name = q.name → p = q

theorem lastNamed?_eq_some_iff (apart : ApartByName paths) :
    lastNamed? paths name = some p ↔ p ∈ paths ∧ p.name = name := by
  have bears {q : Path} (last : lastNamed? paths name = some q) : q.name = name := by
    simpa using List.find?_some last
  constructor
  · intro last
    exact ⟨mem_of_lastNamed? last, bears last⟩
  · rintro ⟨member, named⟩
    obtain ⟨q, last⟩ := Option.isSome_iff_exists.mp (isSome_lastNamed?_iff.mpr ⟨p, member, named⟩)
    rw [last, apart q (mem_of_lastNamed? last) p member ((bears last).trans named.symm)]

theorem isSome_suffixMatch?_iff {specifier : String} :
    ((Index.ofPaths paths).suffixMatch? specifier).isSome = true ↔
      ∃ p ∈ paths, Text.endsWith specifier p.name = true := by
  rw [Index.suffixMatch?, Option.isSome_map, List.find?_isSome]
  have names := Index.names_ofPaths paths
  constructor
  · rintro ⟨entry, listed, ends⟩
    have inside : entry.1 ∈ (Index.ofPaths paths).entries.map (·.1) := List.mem_map_of_mem listed
    rw [names, List.mem_eraseDups] at inside
    obtain ⟨p, member, named⟩ := List.mem_map.mp inside
    exact ⟨p, member, named ▸ ends⟩
  · rintro ⟨p, member, ends⟩
    have inside : p.name ∈ (Index.ofPaths paths).entries.map (·.1) := by
      rw [names, List.mem_eraseDups]
      exact List.mem_map_of_mem member
    obtain ⟨entry, listed, named⟩ := List.mem_map.mp inside
    exact ⟨entry, listed, named.symm ▸ ends⟩

end LastNamed

namespace Resolution

/-- The ways to a path, the first ones first. -/
inductive Stage where
  /-- The specifier points to it from the importing file. -/
  | pointed
  /-- The last part of the specifier is its name. -/
  | named
  /-- The last part and the suffix of a script are its name. -/
  | extended
  /-- The specifier ends with its name. -/
  | ending
  deriving DecidableEq, Repr

/-- The path that one way alone leads to. -/
def Stage.hit? (index : Index) (importer : Option Path) (relativeFirst : Bool) (specifier : String) :
    Stage → Option Path
  | .pointed =>
    if relativeFirst && isRelative specifier then
      importer.bind fun importer => pointedAt? index importer specifier
    else none
  | .named =>
    if Text.afterLast '/' specifier = "" then none
    else index.get? (Text.afterLast '/' specifier)
  | .extended =>
    if Text.afterLast '/' specifier = "" then none
    else suffixes.findSome? fun suffix => index.get? (Text.afterLast '/' specifier ++ suffix)
  | .ending => index.suffixMatch? specifier

/-- The first way that leads to a path, and the path. -/
def staged? (index : Index) (importer : Option Path) (relativeFirst : Bool) (specifier : String) :
    Option (Stage × Path) :=
  if Text.strip specifier = "" then none
  else [Stage.pointed, .named, .extended, .ending].findSome? fun stage =>
    (stage.hit? index importer relativeFirst (Text.strip specifier)).map (stage, ·)

/-- The ways that are tried before. -/
def Stage.before : Stage → List Stage
  | .pointed => []
  | .named => [.pointed]
  | .extended => [.pointed, .named]
  | .ending => [.pointed, .named, .extended]

theorem staged?_eq_some_iff {index : Index} {importer : Option Path} {relativeFirst : Bool}
    {specifier : String} {stage : Stage} {p : Path} :
    staged? index importer relativeFirst specifier = some (stage, p) ↔
      Text.strip specifier ≠ "" ∧
        stage.hit? index importer relativeFirst (Text.strip specifier) = some p ∧
        ∀ earlier ∈ stage.before,
          earlier.hit? index importer relativeFirst (Text.strip specifier) = none := by
  rw [staged?]
  split
  case isTrue empty => simp [empty]
  case isFalse nonempty =>
    generalize Stage.hit? index importer relativeFirst (Text.strip specifier) = hit
    simp only [List.findSome?_cons, List.findSome?_nil, ne_eq, nonempty, not_false_eq_true, true_and]
    cases first : hit .pointed <;> cases second : hit .named <;> cases third : hit .extended <;>
      cases fourth : hit .ending <;> cases stage <;> simp [Stage.before, *]

theorem named?_eq_hits (index : Index) (importer : Option Path) (relativeFirst : Bool)
    (specifier : String) :
    named? index specifier =
      (Stage.named.hit? index importer relativeFirst specifier).or
        (Stage.extended.hit? index importer relativeFirst specifier) := by
  have scripts : Language.scriptSuffixes.map (·.1) = suffixes := rfl
  simp only [named?, Stage.hit?, scripts, List.findSome?_cons, String.append_empty]
  split
  · rfl
  · cases index.get? (Text.afterLast '/' specifier) <;> rfl

/-- Resolving takes the first hit. -/
theorem resolve_eq_staged (index : Index) (importer : Option Path) (relativeFirst : Bool)
    (specifier : String) :
    resolve index importer relativeFirst specifier =
      (staged? index importer relativeFirst specifier).map (·.2) := by
  have pointed : resolve index importer relativeFirst specifier =
      if Text.strip specifier = "" then none
      else ((Stage.pointed.hit? index importer relativeFirst (Text.strip specifier)).or
        (named? index (Text.strip specifier))).or (index.suffixMatch? (Text.strip specifier)) := by
    cases importer with
    | none => simp [resolve, Stage.hit?]
    | some importer => rfl
  rw [pointed, named?_eq_hits index importer relativeFirst, staged?]
  split
  · rfl
  · simp only [List.findSome?_cons, List.findSome?_nil]
    cases Stage.pointed.hit? index importer relativeFirst (Text.strip specifier) with
    | some p => rfl
    | none =>
        cases Stage.named.hit? index importer relativeFirst (Text.strip specifier) with
        | some p => rfl
        | none =>
            cases Stage.extended.hit? index importer relativeFirst (Text.strip specifier) with
            | some p => rfl
            | none => cases found : index.suffixMatch? (Text.strip specifier) <;> simp [Stage.hit?, found]

section Hits

variable {ps qs : List Path} {importer : Option Path} {relativeFirst : Bool} {specifier : String}
  {stage : Stage} {p : Path}

theorem isSome_staged?_iff {index : Index} :
    (staged? index importer relativeFirst specifier).isSome = true ↔
      Text.strip specifier ≠ "" ∧
        ∃ stage : Stage,
          (stage.hit? index importer relativeFirst (Text.strip specifier)).isSome = true := by
  rw [staged?]
  split
  case isTrue empty => simp [empty]
  case isFalse nonempty =>
    rw [List.findSome?_isSome_iff]
    simp only [Option.isSome_map]
    constructor
    · rintro ⟨stage, -, hit⟩
      exact ⟨nonempty, stage, hit⟩
    · rintro ⟨-, stage, hit⟩
      exact ⟨stage, by cases stage <;> simp, hit⟩

theorem Stage.isSome_hit?_mono (more : ps ⊆ qs)
    (hit : (stage.hit? (Index.ofPaths ps) importer relativeFirst specifier).isSome = true) :
    (stage.hit? (Index.ofPaths qs) importer relativeFirst specifier).isSome = true := by
  have last {name : String} (hit : (lastNamed? ps name).isSome = true) :
      (lastNamed? qs name).isSome = true := by
    obtain ⟨p, member, named⟩ := isSome_lastNamed?_iff.mp hit
    exact isSome_lastNamed?_iff.mpr ⟨p, more member, named⟩
  cases stage with
  | pointed =>
      rw [hit?] at hit ⊢
      split at hit
      case isFalse => exact absurd hit (by simp)
      case isTrue asked =>
        rw [if_pos asked]
        cases importer with
        | none => exact hit
        | some importer =>
            simp only [Option.bind_some, pointedAt?_ofPaths, List.find?_isSome] at hit ⊢
            obtain ⟨p, place, listed⟩ := hit
            exact ⟨p, place, decide_eq_true (more (of_decide_eq_true listed))⟩
  | named =>
      rw [hit?] at hit ⊢
      split at hit
      case isTrue => exact absurd hit (by simp)
      case isFalse full =>
        rw [Index.get?_ofPaths] at hit
        rw [if_neg full, Index.get?_ofPaths]
        exact last hit
  | extended =>
      rw [hit?] at hit ⊢
      split at hit
      case isTrue => exact absurd hit (by simp)
      case isFalse full =>
        rw [List.findSome?_isSome_iff] at hit
        obtain ⟨suffix, member, hit⟩ := hit
        rw [Index.get?_ofPaths] at hit
        rw [if_neg full, List.findSome?_isSome_iff]
        exact ⟨suffix, member, by rw [Index.get?_ofPaths]; exact last hit⟩
  | ending =>
      obtain ⟨p, member, ends⟩ := isSome_suffixMatch?_iff.mp hit
      exact isSome_suffixMatch?_iff.mpr ⟨p, more member, ends⟩

theorem isSome_staged?_mono (more : ps ⊆ qs)
    (hit : (staged? (Index.ofPaths ps) importer relativeFirst specifier).isSome = true) :
    (staged? (Index.ofPaths qs) importer relativeFirst specifier).isSome = true := by
  obtain ⟨nonempty, stage, hit⟩ := isSome_staged?_iff.mp hit
  exact isSome_staged?_iff.mpr ⟨nonempty, stage, stage.isSome_hit?_mono more hit⟩

/-- Looking where the specifier points to first adds one way and changes none of the others. -/
theorem isSome_staged?_relativeFirst {index : Index}
    (hit : (staged? index importer false specifier).isSome = true) :
    (staged? index importer true specifier).isSome = true := by
  obtain ⟨nonempty, stage, hit⟩ := isSome_staged?_iff.mp hit
  refine isSome_staged?_iff.mpr ⟨nonempty, stage, ?_⟩
  cases stage with
  | pointed => exact absurd hit (by simp [Stage.hit?])
  | named | extended | ending => exact hit

variable (same : ∀ p, p ∈ ps ↔ p ∈ qs)
include same

theorem Stage.hit?_pointed_congr :
    Stage.pointed.hit? (Index.ofPaths ps) importer relativeFirst specifier =
      Stage.pointed.hit? (Index.ofPaths qs) importer relativeFirst specifier := by
  simp only [hit?, pointedAt?_ofPaths, same]

theorem lastNamed?_congr (apart : ApartByName ps) (name : String) :
    lastNamed? ps name = lastNamed? qs name := by
  have apart' : ApartByName qs := fun p member q member' =>
    apart p ((same p).mpr member) q ((same q).mpr member')
  apply Option.ext
  intro p
  rw [lastNamed?_eq_some_iff apart, lastNamed?_eq_some_iff apart', same]

/-- By all ways but the last one, the same paths lead to the same hit. -/
theorem Stage.hit?_congr (apart : ApartByName ps) (early : stage ≠ .ending) :
    stage.hit? (Index.ofPaths ps) importer relativeFirst specifier =
      stage.hit? (Index.ofPaths qs) importer relativeFirst specifier := by
  cases stage with
  | pointed => exact hit?_pointed_congr same
  | named | extended => simp only [hit?, Index.get?_ofPaths, lastNamed?_congr same apart]
  | ending => exact absurd rfl early

/-- What a specifier points to is the same among the same paths. -/
theorem staged?_pointed_congr
    (found : staged? (Index.ofPaths ps) importer relativeFirst specifier = some (.pointed, p)) :
    staged? (Index.ofPaths qs) importer relativeFirst specifier = some (.pointed, p) := by
  obtain ⟨nonempty, hit, -⟩ := staged?_eq_some_iff.mp found
  exact staged?_eq_some_iff.mpr ⟨nonempty, Stage.hit?_pointed_congr same ▸ hit, by simp [Stage.before]⟩

theorem staged?_congr (apart : ApartByName ps) (early : stage ≠ .ending)
    (found : staged? (Index.ofPaths ps) importer relativeFirst specifier = some (stage, p)) :
    staged? (Index.ofPaths qs) importer relativeFirst specifier = some (stage, p) := by
  obtain ⟨nonempty, hit, missed⟩ := staged?_eq_some_iff.mp found
  have earlyBefore : ∀ earlier ∈ stage.before, earlier ≠ .ending := by
    cases stage <;> decide
  refine staged?_eq_some_iff.mpr ⟨nonempty, Stage.hit?_congr same apart early ▸ hit, ?_⟩
  intro earlier member
  rw [← Stage.hit?_congr same apart (earlyBefore earlier member)]
  exact missed earlier member

end Hits

/-- Whether a specifier means a path depends on the set of paths only, and more paths or a look where
    it points to do not take a meaning away. The path itself depends on the set only if the
    specifier points to it, and also if its last part names it and no two paths bear one name. -/
theorem resolve_by_set (ps qs : List Path) (importer : Option Path) (relativeFirst : Bool)
    (specifier : String) :
    let resolved (paths : List Path) (first : Bool) :=
      resolve (Index.ofPaths paths) importer first specifier
    let found (paths : List Path) (first : Bool) :=
      staged? (Index.ofPaths paths) importer first specifier
    (∀ paths first, resolved paths first = (found paths first).map (·.2)) ∧
      (ps ⊆ qs → (resolved ps relativeFirst).isSome = true →
        (resolved qs relativeFirst).isSome = true) ∧
      ((∀ p, p ∈ ps ↔ p ∈ qs) →
        (resolved ps relativeFirst).isSome = (resolved qs relativeFirst).isSome) ∧
      ((resolved ps false).isSome = true → (resolved ps true).isSome = true) ∧
      (∀ p, (∀ p, p ∈ ps ↔ p ∈ qs) → found ps relativeFirst = some (.pointed, p) →
        found qs relativeFirst = some (.pointed, p) ∧ resolved qs relativeFirst = some p) ∧
      ∀ stage p, ps.Perm qs → ApartByName ps → stage = .named ∨ stage = .extended →
        found ps relativeFirst = some (stage, p) →
        found qs relativeFirst = some (stage, p) ∧ resolved qs relativeFirst = some p := by
  intro resolved found
  have staged : ∀ paths first, resolved paths first = (found paths first).map (·.2) :=
    fun paths first => resolve_eq_staged (Index.ofPaths paths) importer first specifier
  have mono {ps qs : List Path} (more : ps ⊆ qs)
      (hit : (resolved ps relativeFirst).isSome = true) :
      (resolved qs relativeFirst).isSome = true := by
    rw [staged, Option.isSome_map] at hit ⊢
    exact isSome_staged?_mono more hit
  have meant {stage : Stage} {p : Path} (hit : found qs relativeFirst = some (stage, p)) :
      found qs relativeFirst = some (stage, p) ∧ resolved qs relativeFirst = some p :=
    ⟨hit, by rw [staged, hit, Option.map_some]⟩
  refine ⟨staged, mono, fun same => ?_, fun hit => ?_, fun p same hit => ?_, ?_⟩
  · rw [Bool.eq_iff_iff]
    exact ⟨mono fun p => (same p).mp, mono fun p => (same p).mpr⟩
  · rw [staged, Option.isSome_map] at hit ⊢
    exact isSome_staged?_relativeFirst hit
  · exact meant (staged?_pointed_congr same hit)
  · rintro stage p perm apart (rfl | rfl) hit
    · exact meant (staged?_congr (fun _ => perm.mem_iff) apart (by decide) hit)
    · exact meant (staged?_congr (fun _ => perm.mem_iff) apart (by decide) hit)

/-- One specifier points to a file and another one names a file without its suffix. -/
theorem resolve_by_set_backwards :
    let ps := ["/r/lib/a.ts", "/r/b.ts"].map Path.parse
    let importer := some (Path.parse "/r/x.ts")
    let resolved (paths : List Path) (first : Bool) (specifier : String) :=
      resolve (Index.ofPaths paths) importer first specifier
    let found (paths : List Path) (specifier : String) :=
      staged? (Index.ofPaths paths) importer true specifier
    (ps ⊆ ps.reverse ∧ (∀ p, p ∈ ps ↔ p ∈ ps.reverse) ∧ ps.Perm ps.reverse ∧ ApartByName ps) ∧
      ((resolved ps false "lib/a").isSome = true ∧ (resolved ps true "lib/a").isSome = true ∧
        (resolved ps.reverse true "lib/a").isSome = true) ∧
      (found ps "./b" = some (.pointed, Path.parse "/r/b.ts") ∧
        resolved ps.reverse true "./b" = some (Path.parse "/r/b.ts")) ∧
      (found ps "lib/a" = some (.extended, Path.parse "/r/lib/a.ts") ∧
        resolved ps.reverse true "lib/a" = some (Path.parse "/r/lib/a.ts")) := by
  intro ps importer resolved found
  have same : ∀ p, p ∈ ps ↔ p ∈ ps.reverse := fun p => List.mem_reverse.symm
  have more : ps ⊆ ps.reverse := fun p => (same p).mp
  have perm : ps.Perm ps.reverse := (List.reverse_perm ps).symm
  have apart : ApartByName ps := by
    intro p listed q listed'
    revert q p
    decide
  have hit : (resolved ps false "lib/a").isSome = true := by decide
  have pointed : found ps "./b" = some (.pointed, Path.parse "/r/b.ts") := by decide
  have extended : found ps "lib/a" = some (.extended, Path.parse "/r/lib/a.ts") := by decide
  have named := resolve_by_set ps ps.reverse importer true "lib/a"
  have spelled := resolve_by_set ps ps.reverse importer true "./b"
  have hitFirst := named.2.2.2.1 hit
  exact ⟨⟨more, same, perm, apart⟩, ⟨hit, hitFirst, named.2.1 more hitFirst⟩,
    ⟨pointed, (spelled.2.2.2.2.1 _ same pointed).2⟩,
    ⟨extended, (named.2.2.2.2.2 _ _ perm apart (.inr rfl) extended).2⟩⟩

/-- The order decides between two names that the specifier ends with. -/
example :
    let ps := ["/r/x.ts", "/r/-x.ts"].map Path.parse
    staged? (Index.ofPaths ps) none false "my-x.ts" = some (.ending, Path.parse "/r/x.ts") ∧
      staged? (Index.ofPaths ps.reverse) none false "my-x.ts" =
        some (.ending, Path.parse "/r/-x.ts") := by decide

end Resolution

end RepoAtlas
