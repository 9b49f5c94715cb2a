import Mathlib.Data.List.Forall2
import Vdag.Failure

/-! Outcomes taken apart, whatever their failures are. -/
namespace Vdag.Outcome

variable {ε α β : Type}

theorem okBind (a : α) (f : α → Except ε β) : ((.ok a : Except ε α) >>= f) = f a := rfl

theorem bindOk {x : Except ε α} {f : α → Except ε β} {b : β} :
    (x >>= f) = .ok b ↔ ∃ a, x = .ok a ∧ f a = .ok b := by
  cases x with
  | error failure => simp [bind, Except.bind]
  | ok a => simp [bind, Except.bind]

theorem bindFails {x : Except ε α} {f : α → Except ε β} {failure : ε} :
    (x >>= f) = .error failure ↔ x = .error failure ∨ ∃ a, x = .ok a ∧ f a = .error failure := by
  cases x with
  | error other => simp [bind, Except.bind]
  | ok a => simp [bind, Except.bind]

theorem mapFails {x : Except ε α} {f : α → β} {failure : ε} : x.map f = .error failure ↔ x = .error failure := by
  cases x <;> simp [Except.map]

theorem mapErrorFails {δ : Type} {x : Except ε α} {f : ε → δ} {failure : δ} :
    x.mapError f = .error failure ↔ ∃ cause, x = .error cause ∧ f cause = failure := by
  cases x <;> simp [Except.mapError]

theorem mapOk {x : Except ε α} {f : α → β} {b : β} : x.map f = .ok b ↔ ∃ a, x = .ok a ∧ f a = b := by
  cases x <;> simp [Except.map]

theorem foldlMConsOk {f : β → α → Except ε β} {start last : β} {head : α} {rest : List α} :
    (head :: rest).foldlM f start = .ok last ↔ ∃ next, f start head = .ok next ∧ rest.foldlM f next = .ok last := by
  rw [List.foldlM_cons, bindOk]

theorem foldlMKeeps {P : β → Prop} {f : β → α → Except ε β}
    (step : ∀ {before entry after}, P before → f before entry = .ok after → P after) {list : List α} {start last : β}
    (holds : P start) (ok : list.foldlM f start = .ok last) : P last := by
  induction list generalizing start with
  | nil => cases ok; exact holds
  | cons head rest ih =>
    obtain ⟨next, first, later⟩ := foldlMConsOk.mp ok
    exact ih (step holds first) later

theorem foldlMAgrees {f g : β → α → Except ε β} {list : List α}
    (step : ∀ entry ∈ list, ∀ {before after}, f before entry = .ok after → g before entry = .ok after) {start last : β}
    (ok : list.foldlM f start = .ok last) : list.foldlM g start = .ok last := by
  induction list generalizing start with
  | nil => exact ok
  | cons head rest ih =>
    obtain ⟨next, first, later⟩ := foldlMConsOk.mp ok
    exact foldlMConsOk.mpr ⟨next, step head List.mem_cons_self first,
      ih (fun entry member => step entry (List.mem_cons_of_mem head member)) later⟩

theorem mapMEach {f : α → Except ε β} {list : List α} {found : List β} (ok : list.mapM f = .ok found) :
    List.Forall₂ (fun a b => f a = .ok b) list found := by
  induction list generalizing found with
  | nil => cases ok; exact .nil
  | cons head rest ih =>
    rw [List.mapM_cons, bindOk] at ok
    obtain ⟨b, first, ok⟩ := ok
    obtain ⟨others, later, last⟩ := bindOk.mp ok
    cases last
    exact .cons first (ih later)

theorem mapMFails {f : α → Except ε β} {list : List α} {failure : ε} (failed : list.mapM f = .error failure) :
    ∃ a ∈ list, f a = .error failure := by
  induction list with
  | nil => cases failed
  | cons head rest ih =>
    rw [List.mapM_cons] at failed
    rcases bindFails.mp failed with first | ⟨_, _, failed⟩
    · exact ⟨head, List.mem_cons_self, first⟩
    · rcases bindFails.mp failed with later | ⟨_, _, last⟩
      · obtain ⟨a, member, stopped⟩ := ih later
        exact ⟨a, List.mem_cons_of_mem head member, stopped⟩
      · cases last

theorem mapMOf {f : α → Except ε β} {list : List α} {found : List β}
    (each : List.Forall₂ (fun a b => f a = .ok b) list found) : list.mapM f = .ok found := by
  induction each with
  | nil => rfl
  | cons first _ ih => rw [List.mapM_cons, first, ih]; rfl

theorem foldlMEach {f : β → α → Except ε β} {list : List α} {start last : β} (ok : list.foldlM f start = .ok last) :
    ∀ entry ∈ list, ∃ before after, f before entry = .ok after := by
  induction list generalizing start with
  | nil => simp
  | cons head rest ih =>
    obtain ⟨next, first, later⟩ := foldlMConsOk.mp ok
    exact List.forall_mem_cons.mpr ⟨⟨start, next, first⟩, ih later⟩

theorem consSplits {P : List α → α → List α → Prop} {head : α} {rest : List α} :
    (∃ before a after, head :: rest = before ++ a :: after ∧ P before a after) ↔
      P [] head rest ∨ ∃ before a after, rest = before ++ a :: after ∧ P (head :: before) a after := by
  constructor
  · rintro ⟨before, a, after, split, holds⟩
    cases before with
    | nil =>
      cases split
      exact .inl holds
    | cons first before =>
      cases split
      exact .inr ⟨before, a, after, rfl, holds⟩
  · rintro (holds | ⟨before, a, after, rfl, holds⟩)
    · exact ⟨[], head, rest, rfl, holds⟩
    · exact ⟨head :: before, a, after, rfl, holds⟩

theorem forMFails {f : α → Except ε Unit} {list : List α} {failure : ε} :
    list.forM f = .error failure ↔ ∃ before a after, list = before ++ a :: after ∧
      (∀ b ∈ before, f b = .ok ()) ∧ f a = .error failure := by
  induction list with
  | nil => simp [pure, Except.pure]
  | cons head rest ih =>
    rw [List.forM_eq_forM, List.forM_cons, bindFails, consSplits, ← List.forM_eq_forM, ih]
    refine or_congr (by simp) ⟨?_, ?_⟩
    · rintro ⟨_, first, before, a, after, split, passed, stopped⟩
      exact ⟨before, a, after, split, List.forall_mem_cons.mpr ⟨first, passed⟩, stopped⟩
    · rintro ⟨before, a, after, split, passed, stopped⟩
      obtain ⟨first, passed⟩ := List.forall_mem_cons.mp passed
      exact ⟨(), first, before, a, after, split, passed, stopped⟩

theorem foldlMStops {f : β → α → Except ε β} {list : List α} {start : β} {failure : ε}
    (failed : list.foldlM f start = .error failure) : ∃ before entry after reached,
      list = before ++ entry :: after ∧ before.foldlM f start = .ok reached ∧ f reached entry = .error failure := by
  induction list generalizing start with
  | nil => cases failed
  | cons head rest ih =>
    rw [List.foldlM_cons] at failed
    rcases bindFails.mp failed with first | ⟨next, passed, later⟩
    · exact ⟨[], head, rest, start, rfl, rfl, first⟩
    · obtain ⟨before, entry, after, reached, split, ok, stopped⟩ := ih later
      exact ⟨head :: before, entry, after, reached, congrArg (head :: ·) split, foldlMConsOk.mpr ⟨next, passed, ok⟩,
        stopped⟩

theorem foldlMFails {f : β → α → Except ε β} {list : List α} {start : β} {failure : ε}
    (failed : list.foldlM f start = .error failure) : ∃ entry ∈ list, ∃ before, f before entry = .error failure := by
  obtain ⟨before, entry, after, reached, rfl, _, stopped⟩ := foldlMStops failed
  exact ⟨entry, List.mem_append_right before List.mem_cons_self, reached, stopped⟩

end Vdag.Outcome
