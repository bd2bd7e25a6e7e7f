import Mathlib

/-! Computations that accept or refuse. What one accepts and what it refuses is followed through
sequences, checks in front and traversals: a traversal stops at the first element that is
refused. -/

namespace WaveletRaster
variable {ε β γ : Type}

section
variable {x : Except ε β} {f : β → Except ε γ}

theorem bind_eq_ok_iff {c : γ} : (x >>= f) = .ok c ↔ ∃ b, x = .ok b ∧ f b = .ok c := by
  cases x <;> simp [bind, Except.bind]

theorem bind_eq_error_iff {e : ε} :
    (x >>= f) = .error e ↔ x = .error e ∨ ∃ b, x = .ok b ∧ f b = .error e := by
  cases x <;> simp [bind, Except.bind]

end

section
variable {x : Except ε β} {f : ε → γ}

theorem mapError_eq_ok_iff {b : β} : x.mapError f = .ok b ↔ x = .ok b := by
  cases x <;> simp [Except.mapError]

theorem mapError_eq_error_iff {c : γ} : x.mapError f = .error c ↔ ∃ e, x = .error e ∧ f e = c := by
  cases x <;> simp [Except.mapError]

end

theorem bind_ok_eq_map {x : Except ε β} {f : β → γ} : (x >>= fun b => .ok (f b)) = x.map f := by
  cases x <;> rfl

theorem ite_error_eq_ok_iff {p : Prop} [Decidable p] {e : ε} {x : Except ε β} {b : β} :
    (if p then .error e else x) = .ok b ↔ ¬p ∧ x = .ok b := by
  split_ifs with h <;> simp [h]

section
variable {f : β → Except ε γ} {xs : List β}

theorem mapM_eq_ok_iff {ys : List γ} :
    xs.mapM f = .ok ys ↔ List.Forall₂ (fun x y => f x = .ok y) xs ys := by
  induction xs generalizing ys with
  | nil => cases ys <;> simp [pure, Except.pure]
  | cons x xs ih =>
    rw [List.mapM_cons]
    simp only [bind_eq_ok_iff, ih]
    cases ys <;> simp [pure, Except.pure]

theorem mapM_eq_error_iff {e : ε} : xs.mapM f = .error e ↔ ∃ before x after,
    xs = before ++ x :: after ∧ (∀ y ∈ before, ∃ b, f y = .ok b) ∧ f x = .error e := by
  constructor
  · intro h
    induction xs with
    | nil => cases h
    | cons x xs ih =>
      rw [List.mapM_cons, bind_eq_error_iff] at h
      rcases h with hx | ⟨b, hb, h⟩
      · exact ⟨[], x, xs, rfl, List.forall_mem_nil _, hx⟩
      · obtain hxs | ⟨bs, -, h⟩ := bind_eq_error_iff.mp h
        · obtain ⟨before, y, after, rfl, hbefore, hy⟩ := ih hxs
          exact ⟨x :: before, y, after, rfl, List.forall_mem_cons.mpr ⟨⟨b, hb⟩, hbefore⟩, hy⟩
        · cases h
  · rintro ⟨before, x, after, rfl, hbefore, hx⟩
    induction before with
    | nil =>
      rw [List.nil_append, List.mapM_cons, hx]
      rfl
    | cons y before ih =>
      obtain ⟨⟨b, hb⟩, hbefore⟩ := List.forall_mem_cons.mp hbefore
      rw [List.cons_append, List.mapM_cons, hb, bind_eq_error_iff]
      exact .inr ⟨b, rfl, bind_eq_error_iff.mpr (.inl (ih hbefore))⟩

end

section
variable {f : β → Except ε Unit} {xs : List β}

theorem forM_eq_ok_iff : xs.forM f = .ok () ↔ ∀ x ∈ xs, f x = .ok () := by
  rw [List.forM_eq_forM]
  induction xs with
  | nil => simp [pure, Except.pure]
  | cons x xs ih =>
    rw [List.forM_cons, bind_eq_ok_iff, List.forall_mem_cons, ← ih]
    exact ⟨fun ⟨_, h⟩ => h, fun h => ⟨(), h⟩⟩

theorem forM_eq_error_iff_mapM {e : ε} : xs.forM f = .error e ↔ xs.mapM f = .error e := by
  rw [List.forM_eq_forM]
  induction xs with
  | nil => simp [pure, Except.pure]
  | cons x xs ih =>
    rw [List.forM_cons, List.mapM_cons]
    simp only [bind_eq_error_iff, ih, pure, Except.pure, reduceCtorEq, and_false, exists_false,
      or_false]

theorem forM_eq_error_iff {e : ε} : xs.forM f = .error e ↔ ∃ before x after,
    xs = before ++ x :: after ∧ (∀ y ∈ before, f y = .ok ()) ∧ f x = .error e := by
  rw [forM_eq_error_iff_mapM, mapM_eq_error_iff]
  simp only [Unique.exists_iff, PUnit.default_eq_unit]

end

/-! A computation is known from a relation for what it accepts and one for what it refuses, when it
agrees with both and one of them always holds. -/

section
variable {x : Except ε β} {Accepted : β → Prop} {Refused : ε → Prop}
  (haccepted : ∀ b, Accepted b → x = .ok b) (hrefused : ∀ e, Refused e → x = .error e)
  (htotal : (∃ b, Accepted b) ∨ ∃ e, Refused e)
include haccepted hrefused htotal

theorem eq_ok_iff_of_total {b : β} : x = .ok b ↔ Accepted b := by
  refine ⟨fun h => ?_, haccepted b⟩
  rcases htotal with ⟨b', hb'⟩ | ⟨e, he⟩
  · obtain rfl := Except.ok.inj (h.symm.trans (haccepted b' hb'))
    exact hb'
  · cases h.symm.trans (hrefused e he)

theorem eq_error_iff_of_total {e : ε} : x = .error e ↔ Refused e := by
  refine ⟨fun h => ?_, hrefused e⟩
  rcases htotal with ⟨b, hb⟩ | ⟨e', he'⟩
  · cases h.symm.trans (haccepted b hb)
  · obtain rfl := Except.error.inj (h.symm.trans (hrefused e' he'))
    exact he'

end
end WaveletRaster
