import Mathlib.Tactic.Ring
import RepoAtlas.Proofs.Json.Numeral
import RepoAtlas.Report

/-! # The two texts of an average

The payload and the summary both write an average with two places. They treat a value half-way
between two such numerals differently: the payload goes away from zero, the summary to the even
digit. So the texts are the same unless a hundred times the average lies half-way between an even
number and the next one.
-/

namespace RepoAtlas

namespace Decimal

/-- In units of the last place the value lies half-way between an even number and the next one. -/
def EvenTie (places : Nat) (v : Dyadic) : Prop :=
  ∃ k, 2 ∣ k ∧ 2 * (v.numerator * Nat.pow 10 places) = (2 * k + 1) * v.denominator

theorem tie_iff {num den k : Nat} (positive : 0 < den) :
    2 * num = (2 * k + 1) * den ↔ num / den = k ∧ 2 * (num % den) = den := by
  constructor
  · intro half
    have parts : 2 * num = 2 * (den * k) + den := by rw [half]; ring
    obtain ⟨quotient, rest⟩ := (Nat.div_mod_unique positive).mpr
      ⟨show num - den * k + den * k = num by omega, by omega⟩
    exact ⟨quotient, by omega⟩
  · rintro ⟨rfl, half⟩
    calc 2 * num = 2 * (den * (num / den) + num % den) := by rw [Nat.div_add_mod]
      _ = 2 * (den * (num / den)) + den := by omega
      _ = (2 * (num / den) + 1) * den := by ring

/-- The two ways to round differ at the ties above an even number. -/
theorem roundDiv_eq_iff {num den : Nat} (positive : 0 < den) :
    roundDiv .toEven num den = roundDiv .awayFromZero num den ↔
      ¬∃ k, 2 ∣ k ∧ 2 * num = (2 * k + 1) * den := by
  have ties : (∃ k, 2 ∣ k ∧ 2 * num = (2 * k + 1) * den) ↔
      num / den % 2 = 0 ∧ 2 * (num % den) = den := by
    simp only [tie_iff positive]
    constructor
    · rintro ⟨k, even, rfl, half⟩
      exact ⟨Nat.mod_eq_zero_of_dvd even, half⟩
    · rintro ⟨even, half⟩
      exact ⟨_, Nat.dvd_of_mod_eq_zero even, rfl, half⟩
  rw [ties]
  simp only [roundDiv]
  grind

theorem denominator_pos (v : Dyadic) : 0 < v.denominator := Nat.pow_pos (by decide)

theorem units_eq_iff (places : Nat) (v : Dyadic) :
    units .toEven places v = units .awayFromZero places v ↔ ¬EvenTie places v :=
  roundDiv_eq_iff (denominator_pos v)

/-- A numeral with a point tells how many units of the last place it writes. -/
theorem withPoint_injective (places : Nat) : Function.Injective (withPoint places) := by
  have point : ∀ rest, Json.NoDigit ('.' :: rest) := fun rest c head => by
    cases head
    rfl
  intro m n same
  rw [withPoint, withPoint] at same
  have wholes := congrArg (List.takeWhile Char.isDigit) same
  have behind := congrArg (List.dropWhile Char.isDigit) same
  rw [Json.takeWhile_digits (Json.digital_digits _).2 (point _),
    Json.takeWhile_digits (Json.digital_digits _).2 (point _)] at wholes
  rw [Json.dropWhile_digits (Json.digital_digits _).2 (point _),
    Json.dropWhile_digits (Json.digital_digits _).2 (point _), List.cons.injEq] at behind
  have quotients := congrArg Json.digitsValue wholes
  have rests := congrArg Json.digitsValue behind.2
  rw [Json.digitsValue_digits, Json.digitsValue_digits] at quotients
  rw [Json.digitsValue_padded, Json.digitsValue_padded] at rests
  rw [← Nat.div_add_mod m (Nat.pow 10 places), quotients, rests, Nat.div_add_mod]

theorem fixed_eq_iff (places : Nat) (v : Dyadic) :
    fixed .toEven places v = fixed .awayFromZero places v ↔ ¬EvenTie places v := by
  rw [← units_eq_iff, fixed, fixed, String.ofList_inj, List.append_right_inj,
    (withPoint_injective places).eq_iff]

theorem averageText_eq_ok_iff {average : Float} {text : String} :
    averageText average = .ok text ↔
      (∃ v, Dyadic.ofFloat? average = some v ∧
        (digits (units .awayFromZero 2 v)).length ≤ mostAverageDigits ∧
        fixed .awayFromZero 2 v = text) ∨
      Dyadic.ofFloat? average = none ∧ average.isNaN = true ∧ "NaN" = text := by
  rw [averageText]
  cases finite : Dyadic.ofFloat? average with
  | none =>
      cases nan : average.isNaN with
      | true => simp only [if_true, Except.ok.injEq, reduceCtorEq, false_and, exists_false, true_and,
          false_or]
      | false => simp only [Bool.false_eq_true, if_false, reduceCtorEq, false_and, and_false,
          exists_false, or_false]
  | some v =>
      by_cases short : (digits (units .awayFromZero 2 v)).length ≤ mostAverageDigits <;> simp [short]

/-- Where the payload has a text for the average, the summary has the same unless the average is a
    tie above an even number. What is not a number is spelled differently. -/
theorem shownAverage_eq_iff {average : Float} {text : String} (written : averageText average = .ok text) :
    shownAverage average = text ↔ ∃ v, Dyadic.ofFloat? average = some v ∧ ¬EvenTie 2 v := by
  rcases averageText_eq_ok_iff.mp written with ⟨v, finite, -, rfl⟩ | ⟨infinite, nan, rfl⟩
  · simp [shownAverage, finite, fixed_eq_iff]
  · simp only [shownAverage, infinite, nan, if_true, reduceCtorEq, false_and, exists_false, iff_false]
    decide

end Decimal

namespace Report

/-- What the summary says in front of the average, as markup. -/
def counted (g : RepoGraph) : String :=
  "Scanned [bold]" ++ toString g.stats.totalFiles ++ "[/bold] files in [cyan]" ++
    toString g.stats.clusters ++ "[/cyan] clusters  |  [yellow]" ++
    toString (g.store.edgesOf .imports).length ++ "[/yellow] imports ([yellow]" ++
    toString ((g.store.edgesOf .imports).filter (·.interFolder)).length ++
    "[/yellow] cross-folder)  |  "

/-- The summary in which the average is shown by a text. -/
def summaryShowing (g : RepoGraph) (shown : String) : String :=
  counted g ++ "Avg complexity: [blue]" ++ shown ++ "[/blue] (" ++
    complexityLabel g.stats.avgComplexity ++ ")"

theorem summary_eq (g : RepoGraph) :
    summary g = summaryShowing g (shownAverage g.stats.avgComplexity) := by
  have average : "[/yellow] cross-folder)  |  Avg complexity: [blue]" =
      "[/yellow] cross-folder)  |  " ++ "Avg complexity: [blue]" := rfl
  unfold summary summaryShowing counted
  simp only [average, String.append_assoc]

/-- The payload and the summary show the same average exactly if it is a finite number and no tie
    above an even number of hundredths. -/
theorem averages_agree_iff (g : RepoGraph) {payload : Json} (written : g.stats.toJson = .ok payload) :
    ∃ exported shown, payload.get? "avgComplexity" = some (.str exported) ∧
      summary g = summaryShowing g shown ∧
      (shown = exported ↔
        ∃ v, Dyadic.ofFloat? g.stats.avgComplexity = some v ∧ ¬Decimal.EvenTie 2 v) := by
  rw [Stats.toJson] at written
  cases average : averageText g.stats.avgComplexity with
  | error problem => simp [average, Except.map] at written
  | ok exported =>
      obtain rfl : _ = payload := by simpa [average, Except.map] using written
      exact ⟨exported, _, rfl, summary_eq g, Decimal.shownAverage_eq_iff average⟩

/-- A graph of files in the root with these complexities. -/
def complexGraph (complexities : List Int) : RepoGraph :=
  let store : Store :=
    { nodes := complexities.zipIdx.map fun (complexity, i) =>
        .file { id := toString i, label := toString i, cluster := rootCluster, path := toString i,
                loc := 1, complexity, commits := 0, color := "", size := 4 }
      edges := [] }
  { root := none, store, stats := Stats.ofStore store 5 }

/-- Of eight files three branch: the average is a tie above an odd number of hundredths. -/
def oddTie : RepoGraph := complexGraph [2, 2, 2, 1, 1, 1, 1, 1]

/-- Of eight files one branches: the average is a tie above an even number of hundredths. -/
def evenTie : RepoGraph := complexGraph [2, 1, 1, 1, 1, 1, 1, 1]

theorem averages_agree_oddTie :
    ∃ payload, oddTie.stats.toJson = .ok payload ∧
      ∃ exported shown, payload.get? "avgComplexity" = some (.str exported) ∧
        summary oddTie = summaryShowing oddTie shown ∧
        (shown = exported ↔
          ∃ v, Dyadic.ofFloat? oddTie.stats.avgComplexity = some v ∧ ¬Decimal.EvenTie 2 v) := by
  have written : averageText oddTie.stats.avgComplexity = .ok "1.38" :=
    Decimal.averageText_eq_ok_iff.mpr
      (.inl ⟨⟨false, 0x16000000000000, -52⟩, by decide +kernel, by decide +kernel, by decide +kernel⟩)
  have payload : oddTie.stats.toJson = .ok _ := congrArg (Except.map _) written
  exact ⟨_, payload, averages_agree_iff oddTie payload⟩

/-- The average is one and an eighth: the payload writes 1.13, and the summary shows 1.12. -/
theorem averages_differ :
    ∃ payload, evenTie.stats.toJson = .ok payload ∧
      payload.get? "avgComplexity" = some (.str "1.13") ∧
      summary evenTie = summaryShowing evenTie "1.12" := by
  have value : Dyadic.ofFloat? evenTie.stats.avgComplexity = some ⟨false, 0x12000000000000, -52⟩ := by
    decide +kernel
  have written : averageText evenTie.stats.avgComplexity = .ok "1.13" :=
    Decimal.averageText_eq_ok_iff.mpr (.inl ⟨_, value, by decide +kernel, by decide +kernel⟩)
  have shown : shownAverage evenTie.stats.avgComplexity = "1.12" := by
    rw [shownAverage, value]
    decide +kernel
  refine ⟨_, congrArg (Except.map _) written, rfl, ?_⟩
  rw [summary_eq, shown]

end Report

end RepoAtlas
