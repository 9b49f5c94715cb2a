import Vdag.Text.Basic

/-! Marks in a text: in front of it, somewhere in it, and where one stands for the first time. -/
namespace Vdag.Text

theorem afterFrontIff {front list rest : List Char} : afterFront front list = some rest ↔ list = front ++ rest :=
  ⟨eqAppendOfAfterFront, fun same => same ▸ afterFrontAppend front rest⟩

/- The mark that comes after the front is the first one. -/
def Heralds (mark front : List Char) : Prop := ∀ before after, front ++ mark = before ++ mark ++ after → after = []

section Marks

variable {mark front list before after : List Char} {c : Char}

theorem heraldsNil : Heralds mark [] := by
  intro before after same
  have lengths := congrArg List.length same
  simp only [List.nil_append, List.length_append] at lengths
  exact List.length_eq_zero_iff.mp (by omega)

theorem heraldsCons (apart : ¬ mark <+: c :: (front ++ mark)) : Heralds mark (c :: front) ↔ Heralds mark front := by
  constructor
  · intro heralds before after same
    exact heralds (c :: before) after (by rw [List.cons_append, same]; rfl)
  · intro heralds before after same
    cases before with
    | nil => exact absurd ⟨after, same.symm⟩ apart
    | cons d before => exact heralds before after (List.cons.inj same).2

theorem heraldsNot (begins : mark <+: c :: (front ++ mark)) : ¬ Heralds mark (c :: front) := by
  intro heralds
  obtain ⟨left, same⟩ := begins
  have none := heralds [] left same.symm
  have lengths := congrArg List.length same
  simp only [none, List.append_nil, List.length_cons, List.length_append] at lengths
  omega

theorem splitFront : splitAtFirst mark (mark ++ after) = some ([], after) := by
  have found := afterFrontAppend mark after
  cases whole : mark ++ after with
  | nil =>
    rw [whole] at found
    rw [splitAtFirst, found]
    rfl
  | cons c list =>
    rw [whole] at found
    rw [splitAtFirst, found]

theorem splitHeralded : splitAtFirst mark (before ++ mark ++ after) = some (before, after) ↔ Heralds mark before := by
  induction before with
  | nil => exact ⟨fun _ => heraldsNil, fun _ => splitFront⟩
  | cons c before ih =>
    rw [List.cons_append, List.cons_append, splitAtFirst]
    cases found : afterFront mark (c :: (before ++ mark ++ after)) with
    | some rest =>
      have shorter : mark.length ≤ (c :: (before ++ mark)).length := by
        rw [List.length_cons, List.length_append]
        omega
      have begins : mark <+: c :: (before ++ mark) :=
        List.prefix_of_prefix_length_le ⟨rest, (afterFrontIff.mp found).symm⟩ ⟨after, rfl⟩ shorter
      refine ⟨fun same => ?_, fun heralds => absurd heralds (heraldsNot begins)⟩
      cases same
    | none =>
      have apart : ¬ mark <+: c :: (before ++ mark) := by
        intro begins
        obtain ⟨left, same⟩ := begins
        have whole : c :: (before ++ mark ++ after) = mark ++ (left ++ after) := by
          rw [← List.append_assoc, same]
          rfl
        rw [afterFrontIff.mpr whole] at found
        cases found
      rw [heraldsCons apart, ← ih]
      simp

theorem splitFirstIff : splitAtFirst mark list = some (before, after) ↔ list = before ++ mark ++ after ∧
    Heralds mark before := by
  constructor
  · intro found
    have same := eqAppendOfSplitAtFirst found
    exact ⟨same, splitHeralded.mp (same ▸ found)⟩
  · intro given
    obtain ⟨rfl, heralds⟩ := given
    exact splitHeralded.mpr heralds

theorem occursIff : occurs mark list = true ↔ ∃ before after, list = before ++ mark ++ after := by
  constructor
  · intro given
    obtain ⟨parts, found⟩ := Option.isSome_iff_exists.mp given
    exact ⟨parts.1, parts.2, eqAppendOfSplitAtFirst found⟩
  · intro given
    obtain ⟨before, after, rfl⟩ := given
    induction before with
    | nil =>
      rw [occurs, List.nil_append, splitFront]
      rfl
    | cons c before ih =>
      rw [List.cons_append, List.cons_append, occurs, splitAtFirst]
      split
      · rfl
      · rw [Option.isSome_map]
        exact ih

end Marks

theorem dropFrontIff {front text rest : String} : dropFront? front text = some rest ↔ text = front ++ rest := by
  rw [dropFront?, Option.map_eq_some_iff, ← String.toList_inj, String.toList_append]
  constructor
  · intro given
    obtain ⟨left, found, rfl⟩ := given
    rw [String.toList_ofList]
    exact afterFrontIff.mp found
  · intro whole
    exact ⟨rest.toList, afterFrontIff.mpr whole, String.ofList_toList⟩

theorem splitTextIff {mark text before after : String} :
    splitFirst? mark text = some (before, after) ↔
      text = before ++ mark ++ after ∧ Heralds mark.toList before.toList := by
  rw [splitFirst?, Option.map_eq_some_iff, ← String.toList_inj, String.toList_append, String.toList_append]
  constructor
  · intro given
    obtain ⟨⟨front, left⟩, found, same⟩ := given
    cases same
    rw [String.toList_ofList, String.toList_ofList]
    exact splitFirstIff.mp found
  · intro given
    refine ⟨(before.toList, after.toList), splitFirstIff.mpr given, ?_⟩
    rw [String.ofList_toList, String.ofList_toList]

section Repeated

variable {n : Nat} {c : Char} {front x y : List Char}

theorem repeatedParts (whole : List.replicate n c = x ++ y) :
    (∀ d ∈ x, d = c) ∧ (∀ d ∈ y, d = c) ∧ x ++ y = y ++ x := by
  obtain ⟨_, first, last⟩ := List.append_eq_replicate_iff.mp whole.symm
  refine ⟨(List.eq_replicate_iff.mp first).2, (List.eq_replicate_iff.mp last).2, ?_⟩
  rw [first, last, List.replicate_append_replicate, List.replicate_append_replicate, Nat.add_comm]

theorem heraldsRepeated : Heralds (List.replicate (n + 1) c) front ↔
    occurs (List.replicate (n + 1) c) front = false ∧ front.getLast? ≠ some c := by
  constructor
  · intro heralds
    refine ⟨Bool.eq_false_iff.mpr fun inside => ?_, fun ends => ?_⟩
    · obtain ⟨before, after, rfl⟩ := occursIff.mp inside
      have none := heralds before (after ++ List.replicate (n + 1) c) (List.append_assoc ..)
      have lengths := congrArg List.length none
      simp at lengths
    · obtain ⟨before, rfl⟩ := List.getLast?_eq_some_iff.mp ends
      have turned : [c] ++ List.replicate (n + 1) c = List.replicate (n + 1) c ++ [c] :=
        List.replicate_succ.symm.trans List.replicate_succ'
      have none := heralds before [c] (by rw [List.append_assoc, turned, List.append_assoc])
      cases none
  · intro clear before after same
    obtain ⟨outside, ends⟩ := clear
    -- The mark found begins within the front, or within the mark itself, whose letters are all the same.
    rcases List.append_eq_append_iff.mp same with ⟨early, left, whole⟩ | ⟨later, inside, _⟩
    · obtain ⟨_, letters, turned⟩ := repeatedParts whole
      rw [whole, turned, ← List.append_assoc] at left
      have left := List.append_cancel_right left
      rcases List.eq_nil_or_concat after with none | ⟨init, d, rfl⟩
      · exact none
      · have last : d = c := letters d (by simp)
        refine absurd ?_ ends
        rw [← left, List.concat_eq_append, ← List.append_assoc, List.getLast?_concat, last]
    · rw [inside, occursIff.mpr ⟨before, later, rfl⟩] at outside
      cases outside

/- Two ways of taking one list apart at such a mark. The earlier front can only miss some letters of the mark, and then
they stand in front of what is left. -/
theorem cutEarlier {front front' last last' : List Char}
    (same : front' ++ List.replicate (n + 1) c ++ last' = front ++ List.replicate (n + 1) c ++ last)
    (heralds : Heralds (List.replicate (n + 1) c) front') (single : occurs (List.replicate (n + 1) c) last' = false) :
    ∃ early late, List.replicate (n + 1) c = early ++ late ∧ late ≠ [] ∧ front = front' ++ early ∧
    last' = early ++ last := by
  generalize repeated : List.replicate (n + 1) c = mark at same heralds single ⊢
  rw [List.append_assoc, List.append_assoc] at same
  have alone : ∀ before after, last' ≠ before ++ mark ++ after := by
    intro before after inside
    rw [occursIff.mpr ⟨before, after, inside⟩] at single
    cases single
  rcases List.append_eq_append_iff.mp same with ⟨early, longer, left⟩ | ⟨more, longer, left⟩
  · rcases List.append_eq_append_iff.mp left with ⟨rest, _, inside⟩ | ⟨late, whole, left⟩
    · exact absurd (inside.trans (List.append_assoc ..).symm) (alone rest last)
    · have turned := (repeatedParts (repeated.trans whole)).2.2
      rw [whole, turned, List.append_assoc] at left
      have left := List.append_cancel_left left
      refine ⟨early, late, whole, fun none => ?_, longer, left.symm⟩
      rw [none, List.append_nil] at whole
      exact alone [] last (whole ▸ left.symm)
  · have begins : mark <+: more ++ mark := by
      refine List.prefix_of_prefix_length_le ⟨last, left⟩ ⟨last', List.append_assoc ..⟩ ?_
      rw [List.length_append]
      omega
    obtain ⟨rest, begun⟩ := begins
    have none : rest = [] := heralds front rest (by rw [longer, List.append_assoc, ← begun, List.append_assoc])
    rw [none, List.append_nil] at begun
    have none : more = [] := List.append_left_eq_self.mp begun.symm
    subst none
    refine ⟨[], mark, rfl, fun none => ?_, ?_, ?_⟩
    · rw [← repeated] at none
      cases none
    · rw [longer, List.append_nil, List.append_nil]
    · exact (List.append_cancel_left left).symm

end Repeated

theorem cutTwice {c : Char} {a b a' b' : List Char} : a ++ c :: b = a' ++ c :: b' ↔
    (a = a' ∧ b = b') ∨ (∃ more, a' = a ++ c :: more ∧ b = more ++ c :: b') ∨
      ∃ more, a = a' ++ c :: more ∧ b' = more ++ c :: b := by
  rw [List.append_eq_append_iff]
  constructor
  · intro given
    rcases given with ⟨between, longer, left⟩ | ⟨between, longer, left⟩
    · rcases List.cons_eq_append_iff.mp left with ⟨rfl, same⟩ | ⟨more, rfl, behind⟩
      · exact .inl ⟨(longer.trans (List.append_nil a)).symm, (List.cons.inj same).2.symm⟩
      · exact .inr (.inl ⟨more, longer, behind⟩)
    · rcases List.cons_eq_append_iff.mp left with ⟨rfl, same⟩ | ⟨more, rfl, behind⟩
      · exact .inl ⟨longer.trans (List.append_nil a'), (List.cons.inj same).2⟩
      · exact .inr (.inr ⟨more, longer, behind⟩)
  · intro given
    rcases given with ⟨rfl, rfl⟩ | ⟨more, rfl, rfl⟩ | ⟨more, rfl, rfl⟩
    · exact .inl ⟨[], (List.append_nil a).symm, rfl⟩
    · exact .inl ⟨c :: more, rfl, rfl⟩
    · exact .inr ⟨c :: more, rfl, rfl⟩

theorem textCutTwice {mark : String} {c : Char} (single : mark.toList = [c]) {a b a' b' : String} :
    a ++ mark ++ b = a' ++ mark ++ b' ↔
      (a = a' ∧ b = b') ∨ (∃ more, a' = a ++ mark ++ more ∧ b = more ++ mark ++ b') ∨
        ∃ more, a = a' ++ mark ++ more ∧ b' = more ++ mark ++ b := by
  have letters : ∀ front last : String, (front ++ mark ++ last).toList = front.toList ++ c :: last.toList := by
    intro front last
    rw [String.toList_append, String.toList_append, single, List.append_assoc]
    rfl
  have listed : ∀ more : List Char, (String.ofList more).toList = more := fun more => String.toList_ofList
  simp only [← String.toList_inj, letters, cutTwice]
  refine or_congr .rfl (or_congr ⟨?_, ?_⟩ ⟨?_, ?_⟩)
  all_goals
    intro given
    obtain ⟨more, given⟩ := given
  · exact ⟨.ofList more, by rwa [listed]⟩
  · exact ⟨more.toList, given⟩
  · exact ⟨.ofList more, by rwa [listed]⟩
  · exact ⟨more.toList, given⟩

end Vdag.Text
