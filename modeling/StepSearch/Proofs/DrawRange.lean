import Mathlib.Data.Stream.Init
import StepSearch.Proofs.InitialPopulation

/-!
# The range of a draw

Which values a draw can give, over all sequences of words. A number is scaled from a word, so that it
never reaches the upper end; and as there are at least as many words as numbers, there is a word for
each of them. What is put together from such numbers, steps and chromosomes among them, can then be
anything within its bounds.
-/

namespace StepSearch

/-- An infinite sequence of words, taken from the front. -/
instance : WordSource (Stream' UInt32) where
  next words := (words.head, words.tail)

namespace Draw

variable {α β : Type}

/-- Whether some words make a draw give `a`: it takes just these, whatever comes behind them. -/
def Attains (draw : Draw (Stream' UInt32) α) (a : α) : Prop :=
  ∃ words : List UInt32, ∀ rest, outcome draw (words ++ₛ rest) = (.ok a, rest)

namespace Attains

theorem pure (a : α) : Attains (pure a) a :=
  ⟨[], fun _ => rfl⟩

theorem bind {x : Draw (Stream' UInt32) α} {f : α → Draw (Stream' UInt32) β} {a : α} {b : β}
    (hx : Attains x a) (hf : Attains (f a) b) : Attains (x >>= f) b := by
  obtain ⟨words, hwords⟩ := hx
  obtain ⟨words', hwords'⟩ := hf
  refine ⟨words ++ words', fun rest => ?_⟩
  rw [Stream'.append_append_stream]
  exact (bind_of_ok (hwords _) f).trans (hwords' rest)

theorem map {x : Draw (Stream' UInt32) α} {a : α} (hx : Attains x a) (f : α → β) :
    Attains (x >>= fun a => Pure.pure (f a)) (f a) :=
  hx.bind (.pure (f a))

/-- The words of the single draws, behind each other. -/
theorem times {draw : Draw (Stream' UInt32) α} {values : List α}
    (h : ∀ a ∈ values, Attains draw a) : Attains (Draw.times values.length draw) values := by
  induction values with
  | nil => exact .pure []
  | cons a values ih =>
    obtain ⟨ha, hvalues⟩ := List.forall_mem_cons.mp h
    exact ha.bind ((ih hvalues).map (a :: ·))

theorem exists_outcome {draw : Draw (Stream' UInt32) α} {a : α} (h : Attains draw a) :
    ∃ words rest, outcome draw words = (.ok a, rest) := by
  obtain ⟨words, hwords⟩ := h
  exact ⟨words ++ₛ Stream'.const 0, _, hwords _⟩

end Attains

/-! ### Words and whole numbers -/

theorem word_attains {n : Nat} (h : n < Nat.pow 2 32) : Attains word n := by
  have htoNat : (UInt32.ofNat n).toNat = n := UInt32.toNat_ofNat_of_lt' h
  refine ⟨[UInt32.ofNat n], fun rest => ?_⟩
  show (Except.ok (UInt32.ofNat n).toNat, rest) = _
  rw [htoNat]

theorem doubleWord_attains {n : Nat} (h : n < Nat.pow 2 64) : Attains doubleWord n := by
  have hlow : n % Nat.pow 2 32 < Nat.pow 2 32 := Nat.mod_lt n (by decide)
  have hhigh : n / Nat.pow 2 32 < Nat.pow 2 32 := by
    simp only [Nat.pow_eq] at h ⊢
    omega
  have hsum : n % Nat.pow 2 32 + n / Nat.pow 2 32 * Nat.pow 2 32 = n := by
    rw [Nat.mul_comm]
    exact Nat.mod_add_div n _
  have hboth : Attains doubleWord (n % Nat.pow 2 32 + n / Nat.pow 2 32 * Nat.pow 2 32) :=
    (word_attains hlow).bind ((word_attains hhigh).map _)
  rw [hsum] at hboth
  exact hboth

theorem Width.attains {width : Width} {n : Nat} (h : n < width.size) : Attains width.draw n := by
  cases width with
  | single => exact word_attains h
  | double => exact doubleWord_attains h

/-- With at least as many words as values, one word is scaled to each value. -/
theorem exists_scaled {size n result : Nat} (hn : n ≤ size) (hresult : result < n) :
    ∃ word < size, word * n / size = result := by
  -- The least word that is not scaled to less than `result`.
  obtain ⟨word, hword⟩ : ∃ word, word = (result * size + (n - 1)) / n := ⟨_, rfl⟩
  have hdivision := Nat.div_add_mod (result * size + (n - 1)) n
  have hremainder := Nat.mod_lt (result * size + (n - 1)) (Nat.zero_lt_of_lt hresult)
  rw [← hword, Nat.mul_comm] at hdivision
  have hnext : result * size + size ≤ n * size := by
    rw [← Nat.succ_mul]
    exact Nat.mul_le_mul_right size hresult
  refine ⟨word, ?_, ?_⟩
  · have hproduct : word * n < size * n := by
      rw [Nat.mul_comm size n]
      omega
    exact Nat.lt_of_mul_lt_mul_right hproduct
  · refine Nat.div_eq_of_lt_le (by omega) ?_
    rw [Nat.succ_mul]
    omega

theorem below_attains {width : Width} {n result : Nat} (hn : n ≤ width.size) (h : result < n) :
    Attains (below width n) result := by
  obtain ⟨word, hword, hscaled⟩ := exists_scaled hn h
  have hsize : 0 < width.size := Nat.zero_lt_of_lt hword
  refine (Width.attains hword).bind ?_
  dsimp only
  split
  · -- A second word of zero carries nothing.
    have hcarry : ¬ width.size ≤ word * n % width.size + 0 * n / width.size := by
      rw [Nat.zero_mul, Nat.zero_div]
      exact Nat.not_le.mpr (Nat.mod_lt _ hsize)
    refine (Width.attains hsize).bind ?_
    rw [if_neg hcarry, hscaled]
    exact .pure result
  · rw [hscaled]
    exact .pure result

/-- The range of numbers up to a bound fits into the words that the bound chooses. -/
theorem le_size_ofBound {bound : Nat} (h : bound < Nat.pow 2 64) :
    bound + 1 ≤ (Width.ofBound bound).size := by
  unfold Width.ofBound
  split
  · assumption
  · exact h

theorem offset_attains {width : Width} {low n value : Nat} (hn : n ≤ width.size) (hlow : low ≤ value)
    (hvalue : value < low + n) :
    Attains (below width n >>= fun offset => pure (low + offset)) value := by
  have hoffset : value - low < n := by omega
  have hbelow := (below_attains hn hoffset).map (low + ·)
  rw [Nat.add_sub_cancel' hlow] at hbelow
  exact hbelow

theorem inclusive_attains {low high value : Nat} (hhigh : high < Nat.pow 2 64) (hlow : low ≤ value)
    (hvalue : value ≤ high) : Attains (inclusive low high) value := by
  have hsize := le_size_ofBound hhigh
  have hrange : high - low + 1 ≤ (Width.ofBound high).size := by omega
  unfold inclusive
  rw [if_neg (by omega)]
  exact offset_attains hrange hlow (by omega)

theorem exclusive_attains {low high value : Nat} (hhigh : high < Nat.pow 2 64) (hlow : low ≤ value)
    (hvalue : value < high) : Attains (exclusive low high) value := by
  have hsize := le_size_ofBound hhigh
  have hrange : high - low ≤ (Width.ofBound high).size := by omega
  unfold exclusive
  rw [if_neg (by omega)]
  exact offset_attains hrange hlow (by omega)

end Draw

/-! ### Chromosomes and populations -/

theorem Step.draw_attains (step : Step) : Draw.Attains Step.draw step := by
  have hplace : step.index < all.length := List.idxOf_lt_length_of_mem (mem_all step)
  have hdraw := (Draw.exclusive_attains (by decide) (Nat.zero_le _) hplace).map ofIndex
  rw [ofIndex_index] at hdraw
  exact hdraw

theorem Chromosome.draw_attains {least greatest : Nat} (hgreatest : greatest < Nat.pow 2 64)
    {c : Chromosome} (hleast : least ≤ c.length) (hlength : c.length ≤ greatest) :
    Draw.Attains (draw least greatest) c := by
  unfold draw
  rw [if_neg (by omega)]
  exact (Draw.inclusive_attains hgreatest hleast hlength).bind
    ((Draw.Attains.times fun step _ => Step.draw_attains step).map Chromosome.mk)

theorem Population.draw_attains {least greatest : Nat} (hgreatest : greatest < Nat.pow 2 64)
    (metric : Metric) {chromosomes : List Chromosome}
    (h : ∀ c ∈ chromosomes, least ≤ c.length ∧ c.length ≤ greatest) :
    Draw.Attains (draw metric chromosomes.length least greatest) (.ofChromosomes metric chromosomes) := by
  rw [draw_eq, map_eq_pure_bind]
  refine (Draw.Attains.times fun c hc => ?_).map (Population.ofChromosomes metric)
  obtain ⟨hleast, hlength⟩ := h c hc
  exact Chromosome.draw_attains hgreatest hleast hlength

/-- Random chromosomes range over all chromosomes with a length between the bounds.

Every source of words gives one of them, with each step drawn from a place of the catalog, and a
population of any size that has nothing else; and for each of them, and for each population of them,
there are words that give just it. -/
theorem Chromosome.draw_ranges_over_all_in_bounds {least greatest : Nat} (hle : least ≤ greatest)
    (hgreatest : greatest < Nat.pow 2 64) :
    {c : Chromosome | ∃ words rest : Stream' UInt32,
        outcome (draw least greatest) words = (.ok c, rest)} =
      {c | least ≤ c.length ∧ c.length ≤ greatest} ∧
    (∀ (σ : Type) [WordSource σ] (g : σ),
      (∃ c g', outcome (draw least greatest) g = (.ok c, g') ∧
        least ≤ c.length ∧ c.length ≤ greatest) ∧
      (∀ place g', outcome (Draw.exclusive 0 Step.all.length) g = (.ok place, g') →
        place < Step.all.length) ∧
      ∀ metric size, ∃ p g',
        outcome (Population.draw metric size least greatest) g = (.ok p, g') ∧
        p.metric = metric ∧ p.size = size ∧ p.Evaluated ∧
        ∀ i ∈ p.individuals, i.LengthWithin least greatest) ∧
    ∀ metric chromosomes, (∀ c ∈ chromosomes, least ≤ c.length ∧ c.length ≤ greatest) →
      ∃ words rest : Stream' UInt32,
        outcome (Population.draw metric chromosomes.length least greatest) words =
          (.ok (.ofChromosomes metric chromosomes), rest) := by
  refine ⟨Set.ext fun c => ⟨?_, ?_⟩, fun σ _ g => ⟨?_, ?_, ?_⟩, ?_⟩
  · rintro ⟨words, rest, hc⟩
    exact draw_length hc
  · rintro ⟨hleast, hlength⟩
    exact (draw_attains hgreatest hleast hlength).exists_outcome
  · obtain ⟨c, g', hc⟩ := draw_total hle g
    exact ⟨c, g', hc, draw_length hc⟩
  · intro place g' hplace
    exact (Draw.exclusive_mem hplace).2
  · intro metric size
    obtain ⟨p, g', hp⟩ := Population.draw_total metric size hle g
    obtain ⟨hmetric, hsize, hevaluated⟩ := Population.draw_ok hp
    exact ⟨p, g', hp, hmetric, hsize, hevaluated, Population.draw_lengthWithin hp⟩
  · intro metric chromosomes hchromosomes
    exact (Population.draw_attains hgreatest metric hchromosomes).exists_outcome

/-- With all lengths that there are as bounds, the empty chromosome is among what can be drawn, and so
is one with the first and the last step of the catalog. -/
theorem Chromosome.widest_draw_gives_empty_and_ends : ∃ words words' rest rest' : Stream' UInt32,
    outcome (draw 0 (Nat.pow 2 64 - 1)) words = (.ok ⟨[]⟩, rest) ∧
    outcome (draw 0 (Nat.pow 2 64 - 1)) words' =
      (.ok ⟨[.blockFlattener, .varDeclInitializer]⟩, rest') := by
  obtain ⟨hrange, -, -⟩ := draw_ranges_over_all_in_bounds (Nat.zero_le (Nat.pow 2 64 - 1)) (by decide)
  have hempty : (⟨[]⟩ : Chromosome) ∈
      {c : Chromosome | 0 ≤ c.length ∧ c.length ≤ Nat.pow 2 64 - 1} := by decide
  have hends : (⟨[.blockFlattener, .varDeclInitializer]⟩ : Chromosome) ∈
      {c : Chromosome | 0 ≤ c.length ∧ c.length ≤ Nat.pow 2 64 - 1} := by decide
  rw [← hrange] at hempty hends
  obtain ⟨words, rest, hwords⟩ := hempty
  obtain ⟨words', rest', hwords'⟩ := hends
  exact ⟨words, words', rest, rest', hwords, hwords'⟩

end StepSearch
