import RuleTrade.Library.Logged

/-! One computation in many possible worlds, with a probe that is refused an
answer wherever the worlds answer differently. Either the worlds and the probe
run alike to the end, or the probe is refused and every world has another one
it cannot end alike with, unless both fail. -/

namespace Library.Logged

variable {ε ω α β T : Type}

/-- Two logs have different entries at one position. -/
def Conflict (left right : List ω) : Prop :=
  ∃ (i : Nat) (a b : ω), left[i]? = some a ∧ right[i]? = some b ∧ a ≠ b

theorem Conflict.append {left right : List ω} (h : Conflict left right) (later later' : List ω) :
    Conflict (left ++ later) (right ++ later') := by
  obtain ⟨i, a, b, hLeft, hRight, hNe⟩ := h
  have hi := (List.getElem?_eq_some_iff.mp hLeft).1
  have hi' := (List.getElem?_eq_some_iff.mp hRight).1
  exact ⟨i, a, b, by rw [List.getElem?_append_left hi, hLeft],
    by rw [List.getElem?_append_left hi', hRight], hNe⟩

theorem Conflict.prepend {left right : List ω} (h : Conflict left right) (earlier : List ω) :
    Conflict (earlier ++ left) (earlier ++ right) := by
  obtain ⟨i, a, b, hLeft, hRight, hNe⟩ := h
  refine ⟨earlier.length + i, a, b, ?_, ?_, hNe⟩
  · rw [List.getElem?_append_right (Nat.le_add_right _ _), Nat.add_sub_cancel_left, hLeft]
  · rw [List.getElem?_append_right (Nat.le_add_right _ _), Nat.add_sub_cancel_left, hRight]

theorem Conflict.ne {left right : List ω} (h : Conflict left right) : left ≠ right := by
  rintro rfl
  obtain ⟨i, a, b, hLeft, hRight, hNe⟩ := h
  rw [hLeft] at hRight
  exact hNe (Option.some.inj hRight)

/-- One side fails, or the logs conflict. -/
inductive Diverges : Logged ε ω α → Logged ε ω α → Prop where
  | left (e : ε) (y : Logged ε ω α) : Diverges (.failure e) y
  | right (x : Logged ε ω α) (e : ε) : Diverges x (.failure e)
  | logs (a b : α) {first second : List ω} (conflict : Conflict first second) :
      Diverges (.success a first) (.success b second)

theorem Diverges.bind {x y : Logged ε ω α} (h : Diverges x y) (f g : α → Logged ε ω β) :
    Diverges (x >>= f) (y >>= g) := by
  cases h with
  | left e y => exact .left e _
  | right x e => exact .right _ e
  | logs a b conflict =>
      rw [success_bind, success_bind]
      cases f a with
      | failure e => exact .left e _
      | success c later =>
          cases g b with
          | failure e => exact .right _ e
          | success c' later' => exact .logs c c' (conflict.append later later')

theorem Diverges.prepend {x y : Logged ε ω β} (h : Diverges x y) (a : α) (log : List ω) :
    Diverges ((.success a log : Logged ε ω α) >>= fun _ => x)
      ((.success a log : Logged ε ω α) >>= fun _ => y) := by
  rw [success_bind, success_bind]
  cases h with
  | left e y => exact .left e _
  | right x e => exact .right _ e
  | logs b c conflict => exact .logs b c (conflict.prepend log)

/-- A family with a probe at `none`. -/
inductive Uniform (refused : ε) (x : Option T → Logged ε ω α) : Prop where
  | returns (a : α) (log : List ω) (same : ∀ w, x w = .success a log)
  | raises (e : ε) (granted : e ≠ refused) (same : ∀ w, x w = .failure e)
  | splits (probe : x none = .failure refused)
      (split : ∀ t, ∃ t', Diverges (x (some t)) (x (some t')))

variable {refused : ε}

theorem Uniform.success (a : α) (log : List ω) :
    Uniform refused (fun _ : Option T => (.success a log : Logged ε ω α)) :=
  .returns a log (fun _ => rfl)

theorem Uniform.failure {e : ε} (h : e ≠ refused) :
    Uniform refused (fun _ : Option T => (.failure e : Logged ε ω α)) :=
  .raises e h (fun _ => rfl)

/-- The continuation only matters where the probe returns. -/
theorem Uniform.bind {x : Option T → Logged ε ω α} {f : Option T → α → Logged ε ω β}
    (hx : Uniform refused x)
    (hf : ∀ a log, x none = .success a log → Uniform refused (fun w => f w a)) :
    Uniform refused (fun w => x w >>= f w) := by
  cases hx with
  | returns a log same =>
      have hContinue (w : Option T) :
          x w >>= f w = (.success a log : Logged ε ω α) >>= fun _ => f w a := by
        rw [same w]
        rfl
      cases hf a log (same none) with
      | returns b later same' =>
          refine .returns b (log ++ later) (fun w => ?_)
          rw [hContinue, same' w]
          rfl
      | raises e granted same' =>
          refine .raises e granted (fun w => ?_)
          rw [hContinue, same' w]
          rfl
      | splits probe split =>
          refine .splits ?_ (fun t => ?_)
          · rw [hContinue, probe]
            rfl
          · obtain ⟨t', hDiverges⟩ := split t
            refine ⟨t', ?_⟩
            rw [hContinue, hContinue]
            exact hDiverges.prepend a log
  | raises e granted same =>
      refine .raises e granted (fun w => ?_)
      rw [same w]
      rfl
  | splits probe split =>
      refine .splits ?_ (fun t => ?_)
      · rw [probe]
        rfl
      · obtain ⟨t', hDiverges⟩ := split t
        exact ⟨t', hDiverges.bind _ _⟩

theorem Uniform.sequential (refused : ε) :
    Sequential (fun {α : Type} (x : Option T → Logged ε ω α) => Uniform refused x) where
  success := Uniform.success
  bind := fun hx hf => hx.bind (fun a _ _ => hf a)

end Library.Logged
