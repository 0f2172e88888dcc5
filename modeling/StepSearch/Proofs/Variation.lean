import StepSearch.Proofs.Mutations
import StepSearch.Random.Keystream

/-!
# Laws of variation

What the mutations and a crossover make of their parents, whatever words come. A deletion leaves the
steps whose chance was missed, an addition puts what is drawn between the steps, a randomisation puts
it in their place, and all three take the same words as these draws by themselves. A crossover goes
over from one parent to the other at a point, and two children that are cut at one point have the steps
of their parents between them.
-/

namespace StepSearch

variable {σ : Type}

theorem Draw.times_return {α β : Type} {draw : Draw σ α} (hdraw : Total draw) (n : Nat)
    (f : List α → β) (g : σ) : ∃ values g', outcome (Draw.times n draw) g = (.ok values, g') ∧
      values.length = n ∧ outcome (do return f (← Draw.times n draw)) g = (.ok (f values), g') := by
  obtain ⟨values, g', hvalues⟩ := Draw.times_total hdraw n g
  exact ⟨values, g', hvalues, Draw.times_length hvalues, bind_of_ok hvalues _⟩

variable [WordSource σ]

namespace Chromosome

/-! ### Deletion -/

/-- A deletion leaves what is missed.

There is one chance for each step, first to last, and nothing else is drawn. The child has the steps
whose chance was missed, in their order; so it is a part of the parent, shorter by the number of
hits. -/
theorem deletion_leaves_what_is_missed {p : Binary64} (hp : p.isUnit = true) (c : Chromosome)
    (g : σ) : ∃ hits child g',
      outcome (Draw.times c.length (Draw.chance p)) g = (.ok hits, g') ∧
      hits.length = c.length ∧
      outcome (c.deleteSteps p) g = (.ok child, g') ∧
      child.steps = ((hits.zip c.steps).filter fun (hit, _) => !hit).map Prod.snd ∧
      child.steps.Sublist c.steps ∧
      child.length + hits.count true = c.length := by
  obtain ⟨hits, g', hhits, hcount, hchild⟩ := Draw.times_return (Draw.chance_total hp) c.length
    (fun hits => Chromosome.mk (missed hits c.steps)) g
  rw [← deleteSteps_eq_missed] at hchild
  exact ⟨hits, ⟨missed hits c.steps⟩, g', hhits, hcount, hchild, rfl, missed_sublist hits c.steps,
    length_missed hcount⟩

def evenChance : Binary64 := ⟨0x3FE0000000000000⟩

theorem evenChance_isUnit : evenChance.isUnit = true := by decide +kernel

def fourSteps : Chromosome :=
  ⟨[.unusedPruner, .blockFlattener, .fullInliner, .ssaTransform]⟩

def eightWords : Script where
  words := #[0, 5, 4294967295, 3000000000, 3000000000, 4000000000, 0, 0]

/-- Two words make a chance, and the chances of the two steps at the ends are hit. -/
theorem deletion_of_both_ends : ∃ g',
    outcome (fourSteps.deleteSteps evenChance) eightWords =
      (.ok ⟨[.blockFlattener, .fullInliner]⟩, g') ∧ g'.position = 8 := by
  have hwords : (outcome (Draw.times fourSteps.length (Draw.chance evenChance)) eightWords).map
      Except.toOption Script.position = (some [true, false, false, true], 8) := by decide +kernel
  obtain ⟨hits, ⟨steps⟩, g', hhits, -, hchild, hsteps, -, -⟩ :=
    deletion_leaves_what_is_missed evenChance_isUnit fourSteps eightWords
  rw [hhits] at hwords
  obtain ⟨hdrawn, hposition⟩ := Prod.mk.inj hwords
  obtain rfl : hits = [true, false, false, true] := Option.some.inj hdrawn
  obtain rfl : steps = [.blockFlattener, .fullInliner] := hsteps
  exact ⟨g', hchild, hposition⟩

/-! ### Addition -/

theorem drawInsertion_total {p : Binary64} (hp : p.isUnit = true) :
    Total (drawInsertion p : Draw σ (List Step)) := by
  refine (Draw.chance_total hp).bind fun hit => ?_
  cases hit with
  | true => exact Step.draw_total.map _
  | false => exact .pure []

/-- An addition puts what is drawn between the steps.

There is one draw for each place before a step and for the one behind the last step, first to last:
a chance, and if it is hit one step of the catalog. Nothing else is drawn. The child has the steps of
the parent in their order, and between them what was drawn for the place, nothing or one step. -/
theorem addition_interleaves_what_is_drawn {p : Binary64} (hp : p.isUnit = true) (c : Chromosome)
    (g : σ) : ∃ news child g',
      outcome (Draw.times (c.length + 1) (drawInsertion p)) g = (.ok news, g') ∧
      news.length = c.length + 1 ∧
      (∀ new ∈ news, new = [] ∨ ∃ s, new = [s]) ∧
      outcome (c.addSteps p) g = (.ok child, g') ∧
      child.steps = interleave news c.steps ∧
      c.steps.Sublist child.steps ∧
      c.length ≤ child.length ∧ child.length ≤ 2 * c.length + 1 := by
  obtain ⟨news, g', hnews, hcount, hchild⟩ := Draw.times_return (drawInsertion_total hp)
    (c.length + 1) (fun news => Chromosome.mk (interleave news c.steps)) g
  rw [← addSteps_eq_interleave] at hchild
  have hsingle := Draw.times_forall (fun _ _ _ => drawInsertion_ok) hnews
  have hsublist := interleave_sublist news c.steps
  exact ⟨news, ⟨interleave news c.steps⟩, g', hnews, hcount, hsingle, hchild, rfl, hsublist,
    hsublist.length_le, length_interleave_le hcount hsingle⟩

/-- Three of the five chances are hit, and each of the three takes a word for its step. -/
theorem addition_of_three_steps : ∃ g',
    outcome (fourSteps.addSteps evenChance) eightWords =
      (.ok ⟨[.varDeclInitializer, .unusedPruner, .blockFlattener, .blockFlattener, .fullInliner,
        .varDeclInitializer, .ssaTransform]⟩, g') ∧ g'.position = 13 := by
  have hwords : (outcome (Draw.times (fourSteps.length + 1) (drawInsertion evenChance))
      eightWords).map Except.toOption Script.position =
        (some [[.varDeclInitializer], [], [.blockFlattener], [.varDeclInitializer], []], 13) := by
    decide +kernel
  obtain ⟨news, ⟨steps⟩, g', hnews, -, -, hchild, hsteps, -, -, -⟩ :=
    addition_interleaves_what_is_drawn evenChance_isUnit fourSteps eightWords
  rw [hnews] at hwords
  obtain ⟨hdrawn, hposition⟩ := Prod.mk.inj hwords
  obtain rfl := Option.some.inj hdrawn
  obtain rfl : steps = [.varDeclInitializer, .unusedPruner, .blockFlattener, .blockFlattener,
    .fullInliner, .varDeclInitializer, .ssaTransform] := hsteps
  exact ⟨g', hchild, hposition⟩

/-! ### Randomisation -/

theorem drawReplacement_total {p : Binary64} (hp : p.isUnit = true) :
    Total (drawReplacement p : Draw σ (Option Step)) := by
  refine (Draw.chance_total hp).bind fun hit => ?_
  cases hit with
  | true => exact Step.draw_total.map some
  | false => exact .pure none

/-- A randomisation replaces what is drawn to be replaced.

There is one draw for each step, first to last: a chance, and if it is hit one step of the catalog.
Nothing else is drawn. The child is as long as the parent; it has the step that was drawn where the
chance was hit, and the step of the parent where it was missed. No replacement depends on the steps,
so the same words make the same replacements in every other chromosome of this length. -/
theorem randomisation_replaces_what_is_drawn {p : Binary64} (hp : p.isUnit = true) (c : Chromosome)
    (g : σ) : ∃ replacements child g',
      outcome (Draw.times c.length (drawReplacement p)) g = (.ok replacements, g') ∧
      replacements.length = c.length ∧
      outcome (c.randomiseSteps p) g = (.ok child, g') ∧
      child.length = c.length ∧
      (∀ (i : Nat) s, replacements[i]? = some (some s) → child.steps[i]? = some s) ∧
      (∀ i : Nat, replacements[i]? = some none → child.steps[i]? = c.steps[i]?) ∧
      ∀ d : Chromosome, d.length = c.length →
        outcome (d.randomiseSteps p) g = (.ok ⟨overlay replacements d.steps⟩, g') := by
  obtain ⟨replacements, g', hreplacements, hcount, -⟩ :=
    Draw.times_return (drawReplacement_total hp) c.length id g
  have hmutant : ∀ d : Chromosome, d.length = c.length →
      outcome (d.randomiseSteps p) g = (.ok ⟨overlay replacements d.steps⟩, g') := by
    intro d hlength
    rw [randomiseSteps_eq_overlay, hlength]
    exact bind_of_ok hreplacements _
  refine ⟨replacements, _, g', hreplacements, hcount, hmutant c rfl, length_overlay hcount, ?_, ?_,
    hmutant⟩
  · intro i s hi
    obtain ⟨old, -, hnew⟩ := getElem?_overlay hcount hi
    exact hnew
  · intro i hi
    obtain ⟨old, hold, hnew⟩ := getElem?_overlay hcount hi
    rw [hold]
    exact hnew

/-- Three of the four chances are hit, and each of the three takes a word for its step. -/
theorem randomisation_of_three_steps : ∃ g',
    outcome (fourSteps.randomiseSteps evenChance) eightWords =
      (.ok ⟨[.varDeclInitializer, .blockFlattener, .blockFlattener, .varDeclInitializer]⟩, g') ∧
      g'.position = 11 := by
  have hwords : (outcome (Draw.times fourSteps.length (drawReplacement evenChance)) eightWords).map
      Except.toOption Script.position =
        (some [some .varDeclInitializer, none, some .blockFlattener, some .varDeclInitializer],
          11) := by
    decide +kernel
  obtain ⟨replacements, child, g', hreplacements, -, -, -, -, -, hchild⟩ :=
    randomisation_replaces_what_is_drawn evenChance_isUnit fourSteps eightWords
  rw [hreplacements] at hwords
  obtain ⟨hdrawn, hposition⟩ := Prod.mk.inj hwords
  obtain rfl := Option.some.inj hdrawn
  exact ⟨g', hchild fourSteps rfl, hposition⟩

/-! ### Crossover -/

theorem spliceAt_self (a : Chromosome) (point : Nat) : a.spliceAt a point = a := by
  unfold spliceAt
  rw [List.take_append_drop]

theorem spliceAt_zero (a b : Chromosome) : a.spliceAt b 0 = b := rfl

theorem spliceAt_perm (a b : Chromosome) (point : Nat) :
    ((a.spliceAt b point).steps ++ (b.spliceAt a point).steps).Perm (a.steps ++ b.steps) := by
  obtain ⟨as⟩ := a
  obtain ⟨bs⟩ := b
  calc as.take point ++ bs.drop point ++ (bs.take point ++ as.drop point)
    _ = as.take point ++ (bs.drop point ++ (bs.take point ++ as.drop point)) := List.append_assoc ..
    List.Perm _ (as.take point ++ (bs.take point ++ as.drop point ++ bs.drop point)) :=
      List.perm_append_comm.append_left _
    List.Perm _ (as.take point ++ (as.drop point ++ bs.take point ++ bs.drop point)) :=
      (List.perm_append_comm.append_right _).append_left _
    _ = as.take point ++ as.drop point ++ (bs.take point ++ bs.drop point) := by
      simp only [List.append_assoc]
    _ = as ++ bs := by rw [List.take_append_drop, List.take_append_drop]

section Places

variable {a b : Chromosome} {i point : Nat}

theorem getElem?_spliceAt_of_lt (ha : point ≤ a.length) (hi : i < point) :
    (a.spliceAt b point).steps[i]? = a.steps[i]? := by
  have htake : (a.steps.take point).length = point := List.length_take_of_le ha
  unfold spliceAt
  rw [List.getElem?_append_left (by omega), List.getElem?_take_of_lt hi]

theorem getElem?_spliceAt_of_le (ha : point ≤ a.length) (hi : point ≤ i) :
    (a.spliceAt b point).steps[i]? = b.steps[i]? := by
  have htake : (a.steps.take point).length = point := List.length_take_of_le ha
  have hplace : point + (i - point) = i := by omega
  unfold spliceAt
  rw [List.getElem?_append_right (by omega), htake, List.getElem?_drop, hplace]

end Places

/-- A crossover goes over from `a` to `b` at one point.

Whatever point is drawn, the child is as long as `b`, has the steps of `a` below the point and those
of `b` from there on. The point is no further than the end of the shorter parent; it is not zero unless
one of them is empty, and then the child is `b`. Splicing at any point, also past the ends, makes a
chromosome of itself, and the two children of two parents have all their steps, each of them as often
as they have it together. -/
theorem crossover_changes_over_at_one_point (a b : Chromosome) :
    (∀ g : σ, ∃ point child g',
      outcome (a.crossover b) g = (.ok child, g') ∧ child = a.spliceAt b point ∧
      child.length = b.length ∧ point ≤ min a.length b.length ∧
      (∀ i, i < point → child.steps[i]? = a.steps[i]?) ∧
      (∀ i, point ≤ i → child.steps[i]? = b.steps[i]?) ∧
      (a.steps ≠ [] → b.steps ≠ [] → 1 ≤ point ∧ child.steps.head? = a.steps.head?) ∧
      (a.steps = [] ∨ b.steps = [] → child = b)) ∧
    ∀ point, a.spliceAt a point = a ∧
      ((a.spliceAt b point).steps ++ (b.spliceAt a point).steps).Perm (a.steps ++ b.steps) := by
  refine ⟨fun g => ?_, fun point => ⟨spliceAt_self a point, spliceAt_perm a b point⟩⟩
  obtain ⟨child, g', hchild⟩ := crossover_total a b g
  obtain ⟨point, hpositive, hleft, hright, rfl⟩ := crossover_ok hchild
  refine ⟨point, _, g', hchild, rfl, length_spliceAt hleft hright, Nat.le_min.mpr ⟨hleft, hright⟩,
    fun i hi => getElem?_spliceAt_of_lt hleft hi, fun i hi => getElem?_spliceAt_of_le hleft hi, ?_, ?_⟩
  · intro ha hb
    have hpoint : 1 ≤ point :=
      hpositive (Nat.lt_min.mpr ⟨List.length_pos_iff.mpr ha, List.length_pos_iff.mpr hb⟩)
    refine ⟨hpoint, ?_⟩
    rw [List.head?_eq_getElem?, List.head?_eq_getElem?]
    exact getElem?_spliceAt_of_lt hleft hpoint
  · intro hempty
    have hpoint : point = 0 := by
      rcases hempty with ha | hb
      · rw [length, ha] at hleft
        exact Nat.le_zero.mp hleft
      · rw [length, hb] at hright
        exact Nat.le_zero.mp hright
    rw [hpoint, spliceAt_zero]

end Chromosome

end StepSearch
