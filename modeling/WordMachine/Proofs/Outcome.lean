/-!
# Computations that may fail

When a chain of computations succeeds, each link did, and when it fails, one link did after those
before it succeeded. A fold that succeeds keeps what each of its steps keeps (`foldlM_induct`); one
that fails has gone through a first part of its list and fails at the element after it
(`foldlM_error`). Two computations are alike when they succeed together or fail together, and chains
of computations that are alike link by link are alike (`Alike.bind`).
-/

namespace WordMachine

universe u v w

variable {ε : Type u} {α β : Type v}

theorem bind_eq_ok {x : Except ε α} {f : α → Except ε β} {b : β} :
    (x >>= f) = .ok b ↔ ∃ a, x = .ok a ∧ f a = .ok b := by
  cases x <;> simp [bind, Except.bind]

theorem bind_eq_error {x : Except ε α} {f : α → Except ε β} {e : ε} :
    (x >>= f) = .error e ↔ x = .error e ∨ ∃ a, x = .ok a ∧ f a = .error e := by
  cases x <;> simp [bind, Except.bind]

theorem map_eq_ok {x : Except ε α} {f : α → β} {b : β} :
    x.map f = .ok b ↔ ∃ a, x = .ok a ∧ f a = b := by
  cases x <;> simp [Except.map]

@[simp] theorem mapError_ok {ε' : Type w} (f : ε → ε') (a : α) :
    (Except.ok a : Except ε α).mapError f = .ok a := rfl

@[simp] theorem mapError_error {ε' : Type w} (f : ε → ε') (e : ε) :
    (Except.error e : Except ε α).mapError f = .error (f e) := rfl

theorem mapError_eq_ok {ε' : Type w} {x : Except ε α} {f : ε → ε'} {a : α} :
    x.mapError f = .ok a ↔ x = .ok a := by
  cases x <;> simp

section Fold

variable {f : β → α → Except ε β}

/-- What holds before the first element and is kept by every step that succeeds holds at the end of
a fold that succeeds, of the whole list. -/
theorem foldlM_induct {P : List α → β → Prop}
    (hstep : ∀ done b a b', P done b → f b a = .ok b' → P (done ++ [a]) b') :
    ∀ (rest done : List α) {b b' : β}, P done b → rest.foldlM f b = .ok b' → P (done ++ rest) b'
  | [], done, b, b', hb, h => by
    cases h
    simpa using hb
  | a :: rest, done, b, b', hb, h => by
    rw [List.foldlM_cons, bind_eq_ok] at h
    obtain ⟨c, hc, h⟩ := h
    have := foldlM_induct hstep rest (done ++ [a]) (hstep done b a c hb hc) h
    simpa using this

theorem foldlM_error : ∀ {l : List α} {b : β} {e : ε}, l.foldlM f b = .error e →
    ∃ done a rest c, l = done ++ a :: rest ∧ done.foldlM f b = .ok c ∧ f c a = .error e
  | [], b, e, h => by cases h
  | a :: l, b, e, h => by
    rw [List.foldlM_cons, bind_eq_error] at h
    rcases h with h | ⟨c, hc, h⟩
    · exact ⟨[], a, l, b, rfl, rfl, h⟩
    · obtain ⟨done, a', rest, d, rfl, hd, he⟩ := foldlM_error h
      refine ⟨a :: done, a', rest, d, rfl, ?_, he⟩
      rw [List.foldlM_cons, bind_eq_ok]
      exact ⟨c, hc, hd⟩

end Fold

section Alike

variable {ε' : Type u} {α' β' : Type v} {E : ε → ε' → Prop} {R : α → α' → Prop}

/-- Both computations succeed with related results or both fail with related errors. -/
inductive Alike (E : ε → ε' → Prop) (R : α → α' → Prop) : Except ε α → Except ε' α' → Prop
  | ok {a : α} {a' : α'} (h : R a a') : Alike E R (.ok a) (.ok a')
  | error {e : ε} {e' : ε'} (h : E e e') : Alike E R (.error e) (.error e')

namespace Alike

variable {x : Except ε α} {x' : Except ε' α'}

theorem bind {S : β → β' → Prop} {k : α → Except ε β} {k' : α' → Except ε' β'} (h : Alike E R x x')
    (hk : ∀ a a', R a a' → Alike E S (k a) (k' a')) : Alike E S (x >>= k) (x' >>= k') := by
  cases h with
  | ok ha => exact hk _ _ ha
  | error he => exact .error he

theorem bind_eq {S : β → β' → Prop} {y : Except ε' α} {k : α → Except ε β} {k' : α → Except ε' β'}
    (h : Alike E Eq x y) (hk : ∀ a, Alike E S (k a) (k' a)) : Alike E S (x >>= k) (y >>= k') :=
  h.bind fun a _ ha => ha ▸ hk a

theorem of_ok {a : α} (h : Alike E R x x') (hx : x = .ok a) : ∃ a', x' = .ok a' ∧ R a a' := by
  subst hx
  cases h with
  | ok ha => exact ⟨_, rfl, ha⟩

theorem of_error {e : ε} (h : Alike E R x x') (hx : x = .error e) :
    ∃ e', x' = .error e' ∧ E e e' := by
  subst hx
  cases h with
  | error he => exact ⟨_, rfl, he⟩

theorem exists_ok_iff (h : Alike E R x x') : (∃ a, x = .ok a) ↔ ∃ a', x' = .ok a' := by
  cases h <;> simp

theorem error_iff {E : ε → ε → Prop} {y : Except ε α'} (h : Alike E R x y)
    (hE : ∀ e e', E e e' → e = e') (e : ε) : x = .error e ↔ y = .error e := by
  cases h with
  | ok => simp
  | error he => rw [hE _ _ he, Except.error.injEq, Except.error.injEq]

end Alike

/-- Computations that have the same results are alike, however they fail. -/
theorem alike_of_ok_iff {x y : Except ε α} (h : ∀ a, x = .ok a ↔ y = .ok a) :
    Alike (fun _ _ => True) Eq x y := by
  rcases x with e | a
  · rcases y with e' | b
    · exact .error trivial
    · cases (h b).2 rfl
  · cases (h a).1 rfl
    exact .ok rfl

end Alike

end WordMachine
