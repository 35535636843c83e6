import DesignTokens.Decimal.Shortest
import DesignTokens.Proofs.Decimal.Value

/-!
# Shortest decimals

The search for a shortest decimal tries only the two neighbours of the double on each grid, and what
it finds has the fewest digits of all decimals that round to the double and is the nearest of those
with as many digits.

* `Decimal.IsShortest`: the shortest decimals of a double.
* `Decimal.le_below_or_above_le`: no decimal with a given number of digits lies between the
  neighbours.
* `Decimal.exists_withDigits?_of_below`, `Decimal.exists_withDigits?_of_above`: the better neighbour
  is found.
* `Decimal.exists_withDigits?_eq_some`: on a grid, it is as good as any decimal.
* `Decimal.shortest_spec`: the search finds a shortest decimal.
* `Decimal.IsShortest.eq_or_lt`: there is no other one, or it is as near and on the other side.
-/

namespace DesignTokens.Decimal

variable {d d' : Decimal} {x : Binary64.Finite} {tie : Tie} {count : ℕ}

/-- The decimal rounds to the magnitude of `x`, none with fewer digits does, and none with as many
digits does that is nearer to it. -/
structure IsShortest (d : Decimal) (x : Binary64.Finite) : Prop where
  nearest : x.Nearest d.value
  fewest (d' : Decimal) (h : x.Nearest d'.value) : d.digits.length ≤ d'.digits.length
  closest (d' : Decimal) (h : x.Nearest d'.value) (hlength : d'.digits.length = d.digits.length) :
    |d.value - x.magnitude| ≤ |d'.value - x.magnitude|

/-- What rounds to a double other than zero is not zero. -/
theorem value_pos_of_nearest (hx : 0 < x.magnitude) (h : x.Nearest d.value) : 0 < d.value :=
  lt_of_le_of_ne d.value_nonneg (h.ne_zero hx).symm

/-- Two shortest decimals have as many digits and are as near. -/
theorem IsShortest.length_digits_eq (h : d.IsShortest x) (h' : d'.IsShortest x) :
    d.digits.length = d'.digits.length :=
  le_antisymm (h.fewest d' h'.nearest) (h'.fewest d h.nearest)

theorem IsShortest.abs_sub_eq (h : d.IsShortest x) (h' : d'.IsShortest x) :
    |d.value - x.magnitude| = |d'.value - x.magnitude| :=
  le_antisymm (h.closest d' h'.nearest (h'.length_digits_eq h))
    (h'.closest d h.nearest (h.length_digits_eq h'))

/-! ## The neighbours on a grid -/

/-- What is cut off after the first digits, in units of the last digit. -/
def cut (d : Decimal) (count : ℕ) : ℕ :=
  d.coefficient % 10 ^ (d.digits.length - count)

/-- The neighbour below is less by what was cut off. -/
theorem value_below (d : Decimal) (count : ℕ) :
    (d.below count).value = d.value - d.cut count * 10 ^ d.exponent := by
  have hsplit := Nat.div_add_mod' d.coefficient (10 ^ (d.digits.length - count))
  have hcast : (d.coefficient : ℚ) =
      (d.coefficient / 10 ^ (d.digits.length - count) : ℕ) * 10 ^ (d.digits.length - count) +
        d.cut count := by
    rw [cut]
    exact_mod_cast hsplit.symm
  simp only [value, below, Nat.pow_eq]
  rw [zpow_add₀ (by norm_num), zpow_natCast]
  conv_rhs => rw [hcast]
  ring

/-- The neighbour above is greater by the rest of a step. -/
theorem value_above (d : Decimal) (count : ℕ) :
    (d.above count).value =
      d.value + ((10 ^ (d.digits.length - count) : ℕ) - d.cut count) * 10 ^ d.exponent := by
  have hbelow := value_below d count
  have hstep : (d.above count).value =
      (d.below count).value + 10 ^ (d.digits.length - count) * 10 ^ d.exponent := by
    simp only [value, above, below]
    rw [zpow_add₀ (by norm_num), zpow_natCast]
    push_cast
    ring
  rw [hstep, hbelow]
  push_cast
  ring

theorem value_below_le (d : Decimal) (count : ℕ) : (d.below count).value ≤ d.value := by
  rw [value_below, sub_le_self_iff]
  exact mul_nonneg (Nat.cast_nonneg _) (ten_zpow_pos _).le

theorem lt_value_above (d : Decimal) (count : ℕ) : d.value < (d.above count).value := by
  have hcut : d.cut count < 10 ^ (d.digits.length - count) := Nat.mod_lt _ (Nat.pow_pos (by decide))
  have hrest : (0 : ℚ) < (10 ^ (d.digits.length - count) : ℕ) - d.cut count :=
    sub_pos.mpr (Nat.cast_lt.mpr hcut)
  rw [value_above, lt_add_iff_pos_right]
  exact mul_pos hrest (ten_zpow_pos _)

/-- A number cut after all its digits is the number. -/
theorem below_length_digits (d : Decimal) : d.below d.digits.length = d := by
  simp [below]

/-- The neighbours have as many digits as were asked for, but the one above may be a power of ten.
-/
theorem coefficient_below_lt (hcount : count ≤ d.digits.length) :
    (d.below count).coefficient < 10 ^ count := by
  simp only [below, Nat.pow_eq]
  rw [Nat.div_lt_iff_lt_mul (Nat.pow_pos (by decide)), ← pow_add, Nat.add_sub_cancel' hcount]
  exact d.coefficient_lt

theorem pow_le_coefficient_below (h : 0 < d.coefficient) (hcount : count < d.digits.length) :
    10 ^ count ≤ (d.below (count + 1)).coefficient := by
  simp only [below, Nat.pow_eq]
  rw [Nat.le_div_iff_mul_le (Nat.pow_pos (by decide)), ← pow_add]
  exact pow_le_coefficient h (by omega)

/-- There is no decimal with a given number of digits between the neighbours. -/
theorem le_below_or_above_le (h : 0 < d.coefficient) (hpos : 0 < count)
    (hcount : count ≤ d.digits.length) (hd' : d'.coefficient < 10 ^ count) :
    d'.value ≤ (d.below count).value ∨ (d.above count).value ≤ d'.value := by
  rcases le_or_gt (d.below count).exponent d'.exponent with hcoarse | hfine
  · -- On the grid, or on a coarser one, the decimal is a whole number of steps.
    obtain ⟨j, hj⟩ := Int.le.dest hcoarse
    have hsteps : d'.value = (d'.coefficient * 10 ^ j : ℕ) * 10 ^ (d.below count).exponent := by
      rw [value, ← hj, zpow_add₀ (by norm_num), zpow_natCast]
      push_cast
      ring
    rw [hsteps]
    rcases Nat.lt_or_ge (d.below count).coefficient (d'.coefficient * 10 ^ j) with hlt | hle
    · right
      exact mul_le_mul_of_nonneg_right (by exact_mod_cast hlt) (ten_zpow_pos _).le
    · left
      exact mul_le_mul_of_nonneg_right (by exact_mod_cast hle) (ten_zpow_pos _).le
  · -- On a finer grid it is below all numbers of that many digits on this one.
    left
    obtain ⟨k, rfl⟩ := Nat.exists_eq_succ_of_ne_zero hpos.ne'
    have hlead := pow_le_coefficient_below h hcount
    calc d'.value ≤ (10 ^ (k + 1) : ℕ) * 10 ^ d'.exponent :=
          mul_le_mul_of_nonneg_right (by exact_mod_cast hd'.le) (ten_zpow_pos _).le
      _ = (10 ^ k : ℕ) * 10 ^ (d'.exponent + 1) := by
          rw [zpow_add_one₀ (by norm_num)]
          push_cast
          ring
      _ ≤ (10 ^ k : ℕ) * 10 ^ (d.below (k + 1)).exponent :=
          mul_le_mul_of_nonneg_left (zpow_le_zpow_right₀ (by norm_num) hfine) (Nat.cast_nonneg _)
      _ ≤ (d.below (k + 1)).value :=
          mul_le_mul_of_nonneg_right (by exact_mod_cast hlead) (ten_zpow_pos _).le

/-! ## The better neighbour -/

/-- How far the neighbours are, in units of the last digit. -/
theorem abs_value_below_sub (d : Decimal) (count : ℕ) :
    |(d.below count).value - d.value| = d.cut count * 10 ^ d.exponent := by
  rw [abs_sub_comm, abs_of_nonneg (sub_nonneg.mpr (value_below_le d count)), value_below,
    sub_sub_cancel]

theorem abs_value_above_sub (d : Decimal) (count : ℕ) :
    |(d.above count).value - d.value| =
      ((10 ^ (d.digits.length - count) : ℕ) - d.cut count) * 10 ^ d.exponent := by
  rw [abs_of_pos (sub_pos.mpr (lt_value_above d count)), value_above, add_sub_cancel_left]

/-- Of two neighbours that both read back, the one above is taken if it is nearer, and the one below
if that is nearer. -/
theorem prefersAbove_bounds (tie : Tie) (coefficient rest unit : ℕ) :
    (tie.prefersAbove coefficient rest unit = true → unit ≤ 2 * rest) ∧
      (tie.prefersAbove coefficient rest unit = false →
        2 * rest ≤ unit ∧ (tie = .away → 2 * rest < unit)) := by
  unfold Tie.prefersAbove
  split_ifs with hbelow habove
  · exact ⟨nofun, fun _ => ⟨hbelow.le, fun _ => hbelow⟩⟩
  · exact ⟨fun _ => habove.le, nofun⟩
  · -- They are equally near.
    refine ⟨fun _ => by omega, fun htie => ⟨by omega, ?_⟩⟩
    rintro rfl
    cases htie

/-- Whether the neighbour above is taken where both read back. -/
def takesAbove (tie : Tie) (d : Decimal) (count : ℕ) : Bool :=
  tie.prefersAbove (d.below count).coefficient (d.cut count) (10 ^ (d.digits.length - count))

/-- The neighbour above is taken only if it is as near as the one below, or nearer. -/
theorem abs_above_le_of_takesAbove (h : takesAbove tie d count = true) :
    |(d.above count).value - d.value| ≤ |(d.below count).value - d.value| := by
  have hle : ((10 ^ (d.digits.length - count) : ℕ) : ℚ) ≤ 2 * d.cut count := by
    exact_mod_cast (prefersAbove_bounds tie _ _ _).1 h
  rw [abs_value_above_sub, abs_value_below_sub]
  exact mul_le_mul_of_nonneg_right (by linarith) (ten_zpow_pos _).le

/-- The neighbour below is taken only if it is as near as the one above, or nearer; and where ties
go away from zero, only if it is nearer. -/
theorem abs_below_le_of_not_takesAbove (h : takesAbove tie d count = false) :
    |(d.below count).value - d.value| ≤ |(d.above count).value - d.value| ∧
      (tie = .away → |(d.below count).value - d.value| < |(d.above count).value - d.value|) := by
  obtain ⟨hle, hlt⟩ := (prefersAbove_bounds tie _ _ _).2 h
  have hle' : (2 * d.cut count : ℚ) ≤ (10 ^ (d.digits.length - count) : ℕ) := by
    exact_mod_cast hle
  rw [abs_value_above_sub, abs_value_below_sub]
  refine ⟨mul_le_mul_of_nonneg_right (by linarith) (ten_zpow_pos _).le, fun haway => ?_⟩
  have hlt' : (2 * d.cut count : ℚ) < (10 ^ (d.digits.length - count) : ℕ) := by
    exact_mod_cast hlt haway
  exact mul_lt_mul_of_pos_right (by linarith) (ten_zpow_pos _)

/-- A decimal with the sign of `x` rounds to `x` if that is the nearest double to its value. -/
theorem toBinary64_eq_iff_nearest (d : Decimal) (x : Binary64.Finite) :
    d.toBinary64 x.negative = .finite x ↔ x.Nearest d.value := by
  rw [toBinary64_eq_finite_iff]
  exact and_iff_right rfl

/-- The search on one grid tries both neighbours. -/
theorem withDigits?_eq (tie : Tie) (x : Binary64.Finite) (count : ℕ) :
    withDigits? tie x count =
      if ((ofFinite x).below count).toBinary64 x.negative = .finite x then
        if ((ofFinite x).above count).toBinary64 x.negative = .finite x ∧
            takesAbove tie (ofFinite x) count = true then some ((ofFinite x).above count)
        else some ((ofFinite x).below count)
      else if ((ofFinite x).above count).toBinary64 x.negative = .finite x then
        some ((ofFinite x).above count)
      else none := by
  simp only [withDigits?, takesAbove, cut, decide_eq_true_eq, Bool.and_eq_true, Nat.pow_eq]
  congr

/-- If the neighbour below reads back, something as near is found, or nearer. -/
theorem exists_withDigits?_of_below (tie : Tie)
    (h : x.Nearest ((ofFinite x).below count).value) :
    ∃ d, withDigits? tie x count = some d ∧
      |d.value - (ofFinite x).value| ≤ |((ofFinite x).below count).value - (ofFinite x).value| ∧
      ((ofFinite x).below count).value ≤ d.value := by
  rw [withDigits?_eq, if_pos ((toBinary64_eq_iff_nearest _ x).mpr h)]
  split
  · next hboth =>
    refine ⟨_, rfl, abs_above_le_of_takesAbove hboth.2, ?_⟩
    exact (value_below_le _ count).trans (lt_value_above _ count).le
  · exact ⟨_, rfl, le_refl _, le_refl _⟩

/-- If the neighbour above reads back, something as near is found, or nearer; and where ties go away
from zero, it is not the neighbour below if that is as near. -/
theorem exists_withDigits?_of_above (tie : Tie)
    (h : x.Nearest ((ofFinite x).above count).value) :
    ∃ d, withDigits? tie x count = some d ∧
      |d.value - (ofFinite x).value| ≤ |((ofFinite x).above count).value - (ofFinite x).value| ∧
      (tie = .away →
        |d.value - (ofFinite x).value| = |((ofFinite x).above count).value - (ofFinite x).value| →
        ((ofFinite x).above count).value ≤ d.value) := by
  have hreads := (toBinary64_eq_iff_nearest _ x).mpr h
  by_cases hbelow : ((ofFinite x).below count).toBinary64 x.negative = .finite x
  · rw [withDigits?_eq, if_pos hbelow]
    cases htakes : takesAbove tie (ofFinite x) count with
    | true =>
      rw [if_pos ⟨hreads, rfl⟩]
      exact ⟨_, rfl, le_refl _, fun _ _ => le_refl _⟩
    | false =>
      rw [if_neg (fun hboth => Bool.false_ne_true hboth.2)]
      obtain ⟨hle, hlt⟩ := abs_below_le_of_not_takesAbove htakes
      exact ⟨_, rfl, hle, fun haway htie => absurd htie (hlt haway).ne⟩
  · rw [withDigits?_eq, if_neg hbelow, if_pos hreads]
    exact ⟨_, rfl, le_refl _, fun _ _ => le_refl _⟩

/-- If a decimal with no more digits than `count` rounds to `x`, the search on the grid of that many
digits finds one that is as near, or nearer; and where ties go away from zero, not one that is as
near and closer to zero. -/
theorem exists_withDigits?_eq_some (tie : Tie) (hx : 0 < x.magnitude) (hpos : 0 < count)
    (hcount : count ≤ (ofFinite x).digits.length) (hd' : d'.coefficient < 10 ^ count)
    (hnearest : x.Nearest d'.value) :
    ∃ d, withDigits? tie x count = some d ∧ |d.value - x.magnitude| ≤ |d'.value - x.magnitude| ∧
      (tie = .away → |d.value - x.magnitude| = |d'.value - x.magnitude| → d'.value ≤ d.value) := by
  have hself := x.nearest_magnitude
  rw [← value_ofFinite] at hx hself ⊢
  have hbelow := value_below_le (ofFinite x) count
  have habove := (lt_value_above (ofFinite x) count).le
  rcases le_below_or_above_le (coefficient_pos hx) hpos hcount hd' with hle | hge
  · -- The neighbour below is between the decimal and the double, so it reads back and is nearer.
    obtain ⟨d, hfound, hdistance, hlow⟩ :=
      exists_withDigits?_of_below tie (hnearest.of_between hself hle hbelow)
    refine ⟨d, hfound, hdistance.trans ?_, fun _ _ => hle.trans hlow⟩
    rw [abs_sub_comm, abs_sub_comm d'.value, abs_of_nonneg (by linarith),
      abs_of_nonneg (by linarith)]
    linarith
  · -- The neighbour above is.
    obtain ⟨d, hfound, hdistance, hhigh⟩ :=
      exists_withDigits?_of_above tie (hself.of_between hnearest habove hge)
    have hcloser : |((ofFinite x).above count).value - (ofFinite x).value| =
        ((ofFinite x).above count).value - (ofFinite x).value := abs_of_nonneg (by linarith)
    have hfarther : |d'.value - (ofFinite x).value| = d'.value - (ofFinite x).value :=
      abs_of_nonneg (by linarith)
    rw [hcloser] at hdistance hhigh
    rw [hfarther]
    refine ⟨d, hfound, by linarith, fun haway htie => ?_⟩
    -- In a tie the decimal is the neighbour above itself.
    have hsame : d'.value = ((ofFinite x).above count).value := by linarith
    rw [hsame] at htie ⊢
    exact hhigh haway htie

/-- What the search on a grid finds rounds to the double, and its coefficient is at most the power
of ten with one digit more than asked for. -/
theorem withDigits?_eq_some (h : withDigits? tie x count = some d)
    (hcount : count ≤ (ofFinite x).digits.length) :
    x.Nearest d.value ∧ d.coefficient ≤ 10 ^ count := by
  have hlt := coefficient_below_lt hcount
  rw [withDigits?_eq] at h
  split_ifs at h with hlow hboth hhigh
  · cases h
    exact ⟨(toBinary64_eq_iff_nearest _ x).mp hboth.1, hlt⟩
  · cases h
    exact ⟨(toBinary64_eq_iff_nearest _ x).mp hlow, hlt.le⟩
  · cases h
    exact ⟨(toBinary64_eq_iff_nearest _ x).mp hhigh, hlt⟩

/-! ## The search over all grids -/

/-- All the digits of a double read back. -/
theorem withDigits?_length_digits_ne_none (tie : Tie) (x : Binary64.Finite) :
    withDigits? tie x (ofFinite x).digits.length ≠ none := by
  have hexact : x.Nearest ((ofFinite x).below (ofFinite x).digits.length).value := by
    rw [below_length_digits, value_ofFinite]
    exact x.nearest_magnitude
  obtain ⟨d, hfound, -⟩ := exists_withDigits?_of_below tie hexact
  rw [hfound]
  exact Option.some_ne_none d

/-- What is found first among the numbers from one on is found with the least number. -/
theorem exists_least_of_findSome? {α : Type} {f : ℕ → Option α} {length : ℕ} {a : α}
    (h : ((List.range length).map (· + 1)).findSome? f = some a) :
    ∃ count, 0 < count ∧ count ≤ length ∧ f count = some a ∧
      ∀ k, 0 < k → k < count → f k = none := by
  have hmem : ∀ k, k ∈ (List.range length).map (· + 1) ↔ 0 < k ∧ k ≤ length := by
    intro k
    simp only [List.mem_map, List.mem_range]
    exact ⟨by rintro ⟨i, hi, rfl⟩; omega, fun h => ⟨k - 1, by omega, by omega⟩⟩
  have hascending : ((List.range length).map (· + 1)).Pairwise (· < ·) :=
    List.pairwise_lt_range.map _ fun _ _ h => Nat.succ_lt_succ h
  obtain ⟨before, count, after, hsplit, hcount, hbefore⟩ := List.findSome?_eq_some_iff.mp h
  rw [hsplit] at hmem hascending
  obtain ⟨hpos, hle⟩ := (hmem count).mp (by simp)
  refine ⟨count, hpos, hle, hcount, fun k hk hlt => hbefore k ?_⟩
  -- What is less than `count` stands in front of it.
  rcases List.mem_append.mp ((hmem k).mpr ⟨hk, by omega⟩) with hk | hk
  · exact hk
  · rcases List.mem_cons.mp hk with rfl | hafter
    · exact absurd hlt (lt_irrefl _)
    · have hgt := List.rel_of_pairwise_cons (List.pairwise_append.mp hascending).2.1 hafter
      omega

/-- The search stops at the least number of digits with which something is found. -/
theorem exists_shortest_eq (tie : Tie) (x : Binary64.Finite) :
    ∃ count d, 0 < count ∧ count ≤ (ofFinite x).digits.length ∧
      withDigits? tie x count = some d ∧ shortest tie x = d.normalize ∧
      ∀ k, 0 < k → k < count → withDigits? tie x k = none := by
  have hpos := length_digits_pos (ofFinite x)
  cases hfound : ((List.range (ofFinite x).digits.length).map (· + 1)).findSome?
      (withDigits? tie x) with
  | none =>
    rw [List.findSome?_eq_none_iff] at hfound
    refine absurd (hfound (ofFinite x).digits.length ?_) (withDigits?_length_digits_ne_none tie x)
    exact List.mem_map.mpr ⟨_, List.mem_range.mpr (Nat.sub_lt hpos Nat.one_pos), by omega⟩
  | some d =>
    obtain ⟨count, hcountPos, hcount, hd, hleast⟩ := exists_least_of_findSome? hfound
    refine ⟨count, d, hcountPos, hcount, hd, ?_, hleast⟩
    simp only [shortest, hfound, Option.getD_some]

/-- Where the search stops, no decimal that rounds to the double has fewer digits. -/
theorem le_length_digits_of_nearest (hx : 0 < x.magnitude)
    (hcount : count ≤ (ofFinite x).digits.length)
    (hleast : ∀ k, 0 < k → k < count → withDigits? tie x k = none) (h : x.Nearest d.value) :
    count ≤ d.digits.length := by
  by_contra hlt
  obtain ⟨found, hfound, -⟩ :=
    exists_withDigits?_eq_some tie hx d.length_digits_pos (by omega) d.coefficient_lt h
  rw [hleast _ d.length_digits_pos (by omega)] at hfound
  cases hfound

/-- What is found with some number of digits has no more of them without its trailing zeros: a power
of ten is cut down to its first digit. -/
theorem length_digits_normalize_le (hpos : 0 < count) (h : 0 < d.coefficient)
    (hle : d.coefficient ≤ 10 ^ count) : d.normalize.digits.length ≤ count := by
  rw [length_digits_le_iff hpos]
  refine lt_of_le_of_ne ((coefficient_normalize_le h).trans hle) fun hpower => ?_
  refine coefficient_normalize_mod_ten h ?_
  rw [hpower]
  exact Nat.mod_eq_zero_of_dvd (dvd_pow_self 10 hpos.ne')

/-- The search finds a shortest decimal, and of two that are equally near the one away from zero if
it is told to. -/
theorem shortest_spec (tie : Tie) (hx : 0 < x.magnitude) :
    (shortest tie x).IsShortest x ∧ (tie = .away →
      ∀ d' : Decimal, d'.IsShortest x → d'.value ≤ (shortest tie x).value) := by
  obtain ⟨count, d, hpos, hcount, hfound, hshortest, hleast⟩ := exists_shortest_eq tie x
  obtain ⟨hnearest, hle⟩ := withDigits?_eq_some hfound hcount
  have hcoefficient := coefficient_pos (value_pos_of_nearest hx hnearest)
  have hvalue := value_normalize hcoefficient
  rw [hshortest]
  have hfewest : ∀ d' : Decimal, x.Nearest d'.value → count ≤ d'.digits.length :=
    fun d' hd' => le_length_digits_of_nearest hx hcount hleast hd'
  have hlength : d.normalize.digits.length = count :=
    le_antisymm (length_digits_normalize_le hpos hcoefficient hle) (hfewest _ (hvalue ▸ hnearest))
  have hclosest : ∀ d' : Decimal, x.Nearest d'.value → d'.digits.length = count →
      |d.value - x.magnitude| ≤ |d'.value - x.magnitude| ∧
        (tie = .away → |d.value - x.magnitude| = |d'.value - x.magnitude| → d'.value ≤ d.value) := by
    intro d' hd' hd'length
    obtain ⟨found, hsame, hdistance⟩ :=
      exists_withDigits?_eq_some tie hx hpos hcount (hd'length ▸ d'.coefficient_lt) hd'
    rw [hfound, Option.some.injEq] at hsame
    exact hsame ▸ hdistance
  have hisShortest : d.normalize.IsShortest x := by
    refine ⟨hvalue ▸ hnearest, fun d' hd' => hlength ▸ hfewest d' hd', fun d' hd' hd'length => ?_⟩
    rw [hvalue]
    exact (hclosest d' hd' (hd'length.trans hlength)).1
  refine ⟨hisShortest, fun haway d' hd' => ?_⟩
  have hdistance := hisShortest.abs_sub_eq hd'
  rw [hvalue] at hdistance ⊢
  have hd'length := (hd'.length_digits_eq hisShortest).trans hlength
  exact (hclosest d' hd'.nearest hd'length).2 haway hdistance

/-- There is one shortest decimal, or there are two at the same distance on both sides of the
double, and the search finds the greater one if it is told to. -/
theorem IsShortest.eq_or_lt (hx : 0 < x.magnitude) (h : d.IsShortest x) :
    d = shortest .away x ∨
      d.value < (shortest .away x).value ∧
        d.value + (shortest .away x).value = 2 * x.magnitude := by
  obtain ⟨hfound, hgreatest⟩ := shortest_spec .away hx
  rcases (hgreatest rfl d h).lt_or_eq with hlt | hsame
  · right
    refine ⟨hlt, ?_⟩
    -- As both are equally near, the double is in the middle.
    rcases abs_eq_abs.mp (h.abs_sub_eq hfound) with heq | hopposite
    · exact absurd (sub_left_inj.mp heq) hlt.ne
    · linarith
  · exact .inl (eq_of_value_eq (value_pos_of_nearest hx h.nearest) hsame (h.length_digits_eq hfound))

end DesignTokens.Decimal
