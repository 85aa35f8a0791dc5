import Mathlib.Algebra.Ring.Nat
import Mathlib.Data.List.SplitBy
import Mathlib.Data.List.TakeWhile
import RepoAtlas.Measure

/-! # The branching score by runs

The score is counted in one pass over a text. It can be said without one: a text falls into runs of
word characters, of `&` and of `|`, each as long as possible. A run of word characters counts if it is
a keyword, and a run of an operator's character counts once for each pair in it. No run crosses a line
end, so the scores of texts that are put together line by line add up.
-/

namespace RepoAtlas

namespace Text

/-- The longest stretches of characters with a property, in the order of the text. -/
def runs (p : Char → Bool) (cs : List Char) : List (List Char) :=
  (cs.splitBy fun a b => p a == p b).filter fun run => run.all p

section Runs

variable {p : Char → Bool}

theorem runs_append {cs rest : List Char}
    (apart : ∀ a ∈ cs.getLast?, ∀ b ∈ rest.head?, p a ≠ p b) :
    runs p (cs ++ rest) = runs p cs ++ runs p rest := by
  have cut : ∀ a ∈ cs.getLast?, ∀ b ∈ rest.head?, (p a == p b) = false :=
    fun a last b first => beq_eq_false_iff_ne.mpr (apart a last b first)
  rw [runs, List.splitBy_append cut, List.filter_append, runs, runs]

/-- A stretch of characters that agree is not cut. -/
theorem splitBy_of_agree {cs : List Char} {value : Bool} (nonempty : cs ≠ [])
    (agree : ∀ c ∈ cs, p c = value) : (cs.splitBy fun a b => p a == p b) = [cs] := by
  refine List.splitBy_of_isChain nonempty ?_
  refine List.Pairwise.isChain (List.pairwise_of_forall_mem_list fun a first b second => ?_)
  rw [agree a first, agree b second, beq_self_eq_true]

theorem runs_of_all {run : List Char} (nonempty : run ≠ []) (inside : ∀ c ∈ run, p c = true) :
    runs p run = [run] := by
  rw [runs, splitBy_of_agree nonempty inside]
  exact List.filter_eq_self.mpr fun _ member =>
    List.mem_singleton.mp member ▸ List.all_eq_true.mpr inside

theorem runs_of_none {gap : List Char} (outside : ∀ c ∈ gap, p c = false) : runs p gap = [] := by
  cases gap with
  | nil => rfl
  | cons c rest =>
      rw [runs, splitBy_of_agree (by simp) outside]
      refine List.filter_eq_nil_iff.mpr fun _ member => ?_
      rw [List.mem_singleton.mp member, List.all_cons, outside c (by simp)]
      exact Bool.false_ne_true

theorem runs_run_append {run rest : List Char} (nonempty : run ≠ [])
    (inside : ∀ c ∈ run, p c = true) (ends : ∀ c ∈ rest.head?, p c = false) :
    runs p (run ++ rest) = run :: runs p rest := by
  rw [runs_append, runs_of_all nonempty inside, List.singleton_append]
  intro a last b first
  rw [inside a (List.mem_of_getLast? last), ends b first]
  exact Bool.false_ne_true.symm

theorem head_dropWhile (q : Char → Bool) (cs : List Char) :
    ∀ c ∈ (cs.dropWhile q).head?, q c = false := by
  intro c first
  have stop := List.head?_dropWhile_not q cs
  rw [Option.mem_def.mp first] at stop
  simpa using stop

/-- A character without the property belongs to no run and joins none. -/
theorem runs_cons_of_neg {c : Char} (outside : p c = false) (rest : List Char) :
    runs p (c :: rest) = runs p rest := by
  let gap := rest.takeWhile fun d => !p d
  let behind := rest.dropWhile fun d => !p d
  have parts : gap ++ behind = rest := List.takeWhile_append_dropWhile
  have without : ∀ d ∈ c :: gap, p d = false := by
    intro d member
    rcases List.mem_cons.mp member with rfl | inner
    · exact outside
    · simpa using List.mem_takeWhile_imp inner
  have begins : ∀ d ∈ behind.head?, p d = true := fun d first => by
    simpa using head_dropWhile (fun d => !p d) rest d first
  have apart : ∀ cs : List Char, (∀ d ∈ cs, p d = false) →
      ∀ a ∈ cs.getLast?, ∀ b ∈ behind.head?, p a ≠ p b := by
    intro cs none a last b first
    rw [none a (List.mem_of_getLast? last), begins b first]
    exact Bool.false_ne_true
  have inGap : ∀ d ∈ gap, p d = false := fun d member => without d (List.mem_cons_of_mem c member)
  rw [← parts, ← List.cons_append, runs_append (apart _ without), runs_append (apart _ inGap),
    runs_of_none without, runs_of_none inGap]

/-- A text is read run by run: it is empty, or begins with a character outside, or with a run. -/
theorem runs_induction {motive : List Char → Prop} (nil : motive [])
    (gap : ∀ c rest, p c = false → motive rest → motive (c :: rest))
    (run : ∀ run rest, run ≠ [] → (∀ c ∈ run, p c = true) → (∀ c ∈ rest.head?, p c = false) →
      motive rest → motive (run ++ rest)) (cs : List Char) : motive cs := by
  match cs with
  | [] => exact nil
  | c :: rest =>
      by_cases inside : p c = true
      · have shorter : (rest.dropWhile p).length < rest.length + 1 :=
          Nat.lt_succ_of_le (List.dropWhile_sublist p).length_le
        have whole : (c :: rest.takeWhile p) ++ rest.dropWhile p = c :: rest := by
          rw [List.cons_append, List.takeWhile_append_dropWhile]
        have all : ∀ d ∈ c :: rest.takeWhile p, p d = true := by
          intro d member
          rcases List.mem_cons.mp member with rfl | inner
          · exact inside
          · exact List.mem_takeWhile_imp inner
        rw [← whole]
        exact run _ _ (by simp) all (head_dropWhile p rest)
          (runs_induction nil gap run (rest.dropWhile p))
      · exact gap c rest (by simpa using inside) (runs_induction nil gap run rest)
termination_by cs.length

/-- A character without the property between two texts keeps their runs apart. -/
theorem runs_append_cons {c : Char} (outside : p c = false) (cs rest : List Char) :
    runs p (cs ++ c :: rest) = runs p cs ++ runs p rest := by
  induction cs using runs_induction (p := p) with
  | nil => exact runs_cons_of_neg outside rest
  | gap d more other ih => rw [List.cons_append, runs_cons_of_neg other, runs_cons_of_neg other, ih]
  | run run more nonempty inside ends ih =>
      have ends' : ∀ d ∈ (more ++ c :: rest).head?, p d = false := by
        cases more with
        | nil =>
            intro d first
            cases first
            exact outside
        | cons d more => exact ends
      rw [List.append_assoc, runs_run_append nonempty inside ends', ih,
        runs_run_append nonempty inside ends, List.cons_append]

end Runs

end Text

namespace Metrics

open Text

/-! ## Keywords -/

theorem isWord_of_mem_branchWords {word : List Char} (keyword : word ∈ branchWords) :
    word ≠ [] ∧ ∀ c ∈ word, isWord c = true := by
  have all : (branchWords.all fun word => word ≠ [] && word.all isWord) = true := by decide
  obtain ⟨nonempty, inside⟩ := Bool.and_eq_true_iff.mp (List.all_eq_true.mp all word keyword)
  exact ⟨of_decide_eq_true nonempty, List.all_eq_true.mp inside⟩

theorem opensBranch_iff {cs : List Char} :
    opensBranch cs = true ↔
      ∃ word ∈ branchWords, ∃ rest, cs = word ++ rest ∧ ∀ c ∈ rest.head?, isWord c = false := by
  have ends : ∀ rest : List Char, (!(rest.head?.map isWord).getD false) = true ↔
      ∀ c ∈ rest.head?, isWord c = false := by
    intro rest
    cases rest <;> simp
  simp only [opensBranch, List.any_eq_true, Bool.and_eq_true, List.isPrefixOf_iff_prefix, ends]
  refine exists_congr fun word => and_congr_right fun _ => ?_
  constructor
  · rintro ⟨⟨rest, rfl⟩, last⟩
    rw [List.drop_left] at last
    exact ⟨rest, rfl, last⟩
  · rintro ⟨rest, rfl, last⟩
    rw [List.drop_left]
    exact ⟨List.prefix_append _ _, last⟩

theorem takeWhile_run {p : Char → Bool} {run rest : List Char} (inside : ∀ c ∈ run, p c = true)
    (ends : ∀ c ∈ rest.head?, p c = false) : (run ++ rest).takeWhile p = run := by
  rw [List.takeWhile_append_of_pos inside]
  cases rest with
  | nil => simp
  | cons c more => rw [List.takeWhile_cons_of_neg (by simp [ends c rfl]), List.append_nil]

/-- At the start of a run of word characters a branch opens if the run is a keyword. -/
theorem opensBranch_run {run rest : List Char} (inside : ∀ c ∈ run, isWord c = true)
    (ends : ∀ c ∈ rest.head?, isWord c = false) :
    opensBranch (run ++ rest) = true ↔ run ∈ branchWords := by
  rw [opensBranch_iff]
  constructor
  · rintro ⟨word, keyword, behind, parts, ends'⟩
    have same := congrArg (List.takeWhile isWord) parts
    rw [takeWhile_run inside ends, takeWhile_run (isWord_of_mem_branchWords keyword).2 ends'] at same
    exact same ▸ keyword
  · intro keyword
    exact ⟨run, keyword, rest, rfl, ends⟩

theorem countKeywords_gap (inWord : Bool) {c : Char} (outside : isWord c = false) (rest : List Char) :
    countKeywords inWord (c :: rest) = countKeywords false rest := by
  have closed : opensBranch (c :: rest) = false := by
    refine Bool.eq_false_iff.mpr fun opens => ?_
    obtain ⟨word, keyword, behind, parts, -⟩ := opensBranch_iff.mp opens
    obtain ⟨nonempty, inside⟩ := isWord_of_mem_branchWords keyword
    obtain ⟨first, more, rfl⟩ := List.exists_cons_of_ne_nil nonempty
    rw [List.cons_append, List.cons.injEq] at parts
    rw [parts.1, inside first (by simp)] at outside
    cases outside
  rw [countKeywords, closed, outside]
  simp

/-- Behind the first character of a run nothing is counted up to its end. -/
theorem countKeywords_inside {run rest : List Char} (inside : ∀ c ∈ run, isWord c = true)
    (ends : ∀ c ∈ rest.head?, isWord c = false) :
    countKeywords true (run ++ rest) = countKeywords false rest := by
  induction run with
  | nil =>
      cases rest with
      | nil => rfl
      | cons c more =>
          have outside := ends c rfl
          rw [List.nil_append, countKeywords_gap _ outside, countKeywords_gap _ outside]
  | cons c more ih =>
      rw [List.cons_append, countKeywords, inside c (by simp),
        ih fun d member => inside d (List.mem_cons_of_mem c member)]
      simp

theorem countKeywords_run {run rest : List Char} (nonempty : run ≠ [])
    (inside : ∀ c ∈ run, isWord c = true) (ends : ∀ c ∈ rest.head?, isWord c = false) :
    countKeywords false (run ++ rest) =
      (if run ∈ branchWords then 1 else 0) + countKeywords false rest := by
  have opens := opensBranch_run inside ends
  obtain ⟨c, more, rfl⟩ := List.exists_cons_of_ne_nil nonempty
  rw [List.cons_append] at opens ⊢
  rw [countKeywords, inside c (by simp),
    countKeywords_inside (fun d member => inside d (List.mem_cons_of_mem c member)) ends]
  simp [opens]

theorem countKeywords_eq (cs : List Char) :
    countKeywords false cs = (runs isWord cs).countP (· ∈ branchWords) := by
  induction cs using runs_induction (p := isWord) with
  | nil => rfl
  | gap c rest outside ih => rw [countKeywords_gap _ outside, runs_cons_of_neg outside, ih]
  | run run rest nonempty inside ends ih =>
      rw [countKeywords_run nonempty inside ends, runs_run_append nonempty inside ends,
        List.countP_cons, ih, Nat.add_comm]
      simp

/-! ## Operators -/

/-- The pairs of a character in the runs of it. -/
def pairs (x : Char) (cs : List Char) : Nat := ((runs (· == x) cs).map (·.length / 2)).sum

section Pairs

variable {x c : Char}

theorem pairs_cons_of_ne (other : c ≠ x) (rest : List Char) : pairs x (c :: rest) = pairs x rest := by
  rw [pairs, runs_cons_of_neg (p := (· == x)) (beq_eq_false_iff_ne.mpr other), pairs]

theorem pairs_replicate (n : Nat) {rest : List Char} (ends : rest.head? ≠ some x) :
    pairs x (List.replicate n x ++ rest) = n / 2 + pairs x rest := by
  cases n with
  | zero => simp
  | succ n =>
      have inside : ∀ d ∈ List.replicate (n + 1) x, (d == x) = true :=
        fun d member => beq_iff_eq.mpr (List.eq_of_mem_replicate member)
      have ends' : ∀ d ∈ rest.head?, (d == x) = false := by
        intro d first
        rw [beq_eq_false_iff_ne]
        rintro rfl
        exact ends first
      rw [pairs, runs_run_append (by simp) inside ends', List.map_cons, List.sum_cons,
        List.length_replicate, pairs]

/-- A text begins with a run of the character, perhaps an empty one. -/
theorem exists_replicate (x : Char) (cs : List Char) :
    ∃ n rest, cs = List.replicate n x ++ rest ∧ rest.head? ≠ some x := by
  induction cs with
  | nil => exact ⟨0, [], rfl, by simp⟩
  | cons c more ih =>
      by_cases same : c = x
      · obtain ⟨n, rest, rfl, ends⟩ := ih
        exact ⟨n + 1, rest, by rw [List.replicate_succ, List.cons_append, same], ends⟩
      · exact ⟨0, c :: more, rfl, by simpa using same⟩

theorem pairs_pair (rest : List Char) : pairs x (x :: x :: rest) = pairs x rest + 1 := by
  obtain ⟨n, behind, rfl, ends⟩ := exists_replicate x rest
  have longer : x :: x :: (List.replicate n x ++ behind) = List.replicate (n + 2) x ++ behind := rfl
  rw [longer, pairs_replicate _ ends, pairs_replicate _ ends]
  omega

/-- A character that does not begin a pair adds none. -/
theorem pairs_cons {rest : List Char} (noPair : ∀ more, c = x → rest = x :: more → False) :
    pairs x (c :: rest) = pairs x rest := by
  by_cases same : c = x
  · subst same
    have ends : rest.head? ≠ some c := by
      intro first
      obtain ⟨more, rfl⟩ := List.head?_eq_some_iff.mp first
      exact noPair more rfl rfl
    have single := pairs_replicate 1 ends
    rwa [List.replicate_one, List.singleton_append, Nat.zero_add] at single
  · exact pairs_cons_of_ne same rest

end Pairs

theorem countOperators_eq (cs : List Char) : countOperators cs = pairs '&' cs + pairs '|' cs := by
  fun_induction countOperators cs with
  | case1 rest ih =>
      rw [ih, pairs_pair, pairs_cons_of_ne (by decide), pairs_cons_of_ne (by decide)]
      omega
  | case2 rest ih =>
      rw [ih, pairs_pair, pairs_cons_of_ne (by decide), pairs_cons_of_ne (by decide)]
      omega
  | case3 c rest noAnd noOr ih => rw [ih, pairs_cons noAnd, pairs_cons noOr]
  | case4 => rfl

/-! ## Texts line by line -/

theorem pairs_append_cons {x c : Char} (other : c ≠ x) (cs rest : List Char) :
    pairs x (cs ++ c :: rest) = pairs x cs + pairs x rest := by
  have apart := runs_append_cons (p := (· == x)) (beq_eq_false_iff_ne.mpr other) cs rest
  rw [pairs, apart, List.map_append, List.sum_append, pairs, pairs]

theorem branching_eq (cs : List Char) :
    branching cs = 1 + (runs isWord cs).countP (· ∈ branchWords) + (pairs '&' cs + pairs '|' cs) := by
  rw [branching, countKeywords_eq, countOperators_eq]

theorem branching_append_lineFeed (cs rest : List Char) :
    branching (cs ++ '\n' :: rest) + 1 = branching cs + branching rest := by
  have noWord : isWord '\n' = false := by decide
  rw [branching_eq, branching_eq, branching_eq, runs_append_cons noWord, List.countP_append,
    pairs_append_cons (by decide), pairs_append_cons (by decide)]
  omega

theorem lineCount_append_lineFeed (cs rest : List Char) :
    lineCount (cs ++ '\n' :: rest) = lineCount cs + lineCount rest := by
  rw [lineCount, List.count_append, List.count_cons_self, lineCount, lineCount]
  omega

/-- The branching score is one more than the runs of word characters that are keywords and the pairs
    in the runs of the characters of operators; the lines are one more than the line feeds. Of two
    texts with a line feed between them the lines add up, and so do the scores but for the one that
    each starts with. -/
theorem ofText_by_runs (text next : String) (commits : Int) :
    (ofText text commits).complexity =
        (1 + (runs isWord text.toList).countP
            (fun run => String.ofList run ∈ ["if", "for", "while", "case", "catch"]) +
          (((runs (· == '&') text.toList).map (·.length / 2)).sum +
            ((runs (· == '|') text.toList).map (·.length / 2)).sum) : Nat) ∧
      (ofText text commits).loc = (text.toList.count '\n' + 1 : Nat) ∧
      (ofText (text ++ "\n" ++ next) commits).loc =
        (ofText text commits).loc + (ofText next commits).loc ∧
      (ofText (text ++ "\n" ++ next) commits).complexity =
        (ofText text commits).complexity + (ofText next commits).complexity - 1 := by
  have joined : (text ++ "\n" ++ next).toList = text.toList ++ '\n' :: next.toList := by
    simp [String.toList_append]
  have keywords : ∀ run : List Char, run ∈ branchWords ↔
      String.ofList run ∈ ["if", "for", "while", "case", "catch"] := by
    intro run
    have words : branchWords = ["if", "for", "while", "case", "catch"].map String.toList := rfl
    rw [words, List.mem_map]
    constructor
    · rintro ⟨word, keyword, rfl⟩
      rwa [String.ofList_toList]
    · intro keyword
      exact ⟨_, keyword, String.toList_ofList⟩
  refine ⟨?score, rfl, ?lines, ?sum⟩
  case score =>
    simp only [← keywords]
    exact congrArg Nat.cast (branching_eq text.toList)
  case lines =>
    simp only [ofText, joined, lineCount_append_lineFeed, Int.natCast_add]
  case sum =>
    have sum := branching_append_lineFeed text.toList next.toList
    simp only [ofText, joined]
    omega

example : (ofText "if (iffy &&& x || case_) catch" 0).complexity = 5 := by decide

end Metrics

end RepoAtlas
