/-!
Computations that may fail, compared by what they come to: one comes to every result of another, or
two come to the same results. Why they fail is left open.
-/

namespace HostedTests

def Refines {ε α : Type} (x y : Except ε α) : Prop := ∀ a, x = .ok a → y = .ok a

namespace Refines

variable {ε α β : Type} {x y : Except ε α}

theorem refl (x : Except ε α) : Refines x x := fun _ h => h

theorem bind {f g : α → Except ε β} (h : Refines x y) (k : ∀ a, Refines (f a) (g a)) :
    Refines (x >>= f) (y >>= g) := by
  intro b hb
  cases x with
  | error e => cases hb
  | ok a =>
    rw [h a rfl]
    exact k a b hb

end Refines

structure Agree {ε α : Type} (x y : Except ε α) : Prop where
  forth : Refines x y
  back : Refines y x

theorem bind_of_map {ε α β γ : Type} (x : Except ε α) (f : α → β) (g : β → Except ε γ) :
    x.map f >>= g = x >>= fun a => g (f a) := by
  cases x <;> rfl

namespace Agree

variable {ε α β : Type} {x y : Except ε α}

theorem refl (x : Except ε α) : Agree x x := ⟨.refl x, .refl x⟩

theorem ok_iff (h : Agree x y) (a : α) : x = .ok a ↔ y = .ok a := ⟨h.forth a, h.back a⟩

theorem of_not_ok (hx : ∀ a, x ≠ .ok a) (hy : ∀ a, y ≠ .ok a) : Agree x y :=
  ⟨fun a h => absurd h (hx a), fun a h => absurd h (hy a)⟩

theorem bind {f g : α → Except ε β} (h : Agree x y) (k : ∀ a, Agree (f a) (g a)) :
    Agree (x >>= f) (y >>= g) :=
  ⟨h.forth.bind fun a => (k a).forth, h.back.bind fun a => (k a).back⟩

theorem map (h : Agree x y) (f : α → β) : Agree (x.map f) (y.map f) :=
  h.bind (g := fun a => .ok (f a)) fun a => .refl (.ok (f a))

theorem mapM_map {f : α → Except ε β} {change : α → α} (h : ∀ a, Agree (f (change a)) (f a))
    (as : List α) : Agree ((as.map change).mapM f) (as.mapM f) := by
  induction as with
  | nil => exact .refl _
  | cons a as ih =>
    rw [List.map_cons, List.mapM_cons, List.mapM_cons]
    exact (h a).bind fun b => ih.bind fun bs => .refl _

theorem foldlM_map {f : β → α → Except ε β} {change : α → α}
    (h : ∀ b a, Agree (f b (change a)) (f b a)) (b : β) (as : List α) :
    Agree ((as.map change).foldlM f b) (as.foldlM f b) := by
  induction as generalizing b with
  | nil => exact .refl _
  | cons a as ih =>
    rw [List.map_cons, List.foldlM_cons, List.foldlM_cons]
    exact (h b a).bind ih

end Agree

end HostedTests
