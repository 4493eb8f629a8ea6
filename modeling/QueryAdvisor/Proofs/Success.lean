import QueryAdvisor.Error
/-!
# What the advisors return

`OkOnly P x` says that every value `x` returns satisfies `P`. It is the other half of
`FailsOnly` in `Proofs/Faults`. It passes through `pure`, binds, traversals (`List.mapM`) and
folds (`List.foldlM`). So a fact about what an advisor returns is gathered from one fact about
what each of its steps returns, without opening the steps again.

* `Except.bind_eq_ok`: a bind that returns took a value from its first step;
  `Except.exists_ok_of_isOk`: a computation that reports success returned a value.
* `OkOnly.bind`, `OkOnly.bind_of_forall`, `OkOnly.mapM`, `OkOnly.foldlM`: values through binds, traversals and folds;
  a fold returns what keeps an invariant that each of its steps keeps.
-/

namespace QueryAdvisor

theorem Except.bind_eq_ok {ε α β : Type} {x : Except ε α} {f : α → Except ε β} {b : β} :
    x >>= f = .ok b ↔ ∃ a, x = .ok a ∧ f a = .ok b := by
  cases x with
  | error e => simp [bind, Except.bind]
  | ok a => simp [bind, Except.bind]

theorem Except.exists_ok_of_isOk {ε α : Type} {x : Except ε α} (h : x.isOk = true) : ∃ a, x = .ok a := by
  cases x with
  | error e => cases h
  | ok a => exact ⟨a, rfl⟩

/-- Every value `x` returns satisfies `P`. -/
def OkOnly {ε α : Type} (P : α → Prop) (x : Except ε α) : Prop := ∀ a, x = .ok a → P a

namespace OkOnly

variable {ε α β : Type} {P Q : α → Prop}

theorem ok {a : α} (h : P a) : OkOnly P (.ok a : Except ε α) := by
  rintro b ⟨⟩
  exact h

theorem error (e : ε) : OkOnly P (.error e : Except ε α) := fun _ h => by cases h

theorem mono (hPQ : ∀ a, P a → Q a) {x : Except ε α} (h : OkOnly P x) : OkOnly Q x :=
  fun a ha => hPQ a (h a ha)

theorem bind {R : β → Prop} {x : Except ε α} {f : α → Except ε β} (hx : OkOnly Q x)
    (hf : ∀ a, Q a → OkOnly R (f a)) : OkOnly R (x >>= f) := by
  intro b hb
  obtain ⟨a, ha, hfa⟩ := Except.bind_eq_ok.mp hb
  exact hf a (hx a ha) b hfa

theorem bind_of_forall {R : β → Prop} {x : Except ε α} {f : α → Except ε β} (hf : ∀ a, OkOnly R (f a)) :
    OkOnly R (x >>= f) :=
  bind (Q := fun _ => True) (fun _ _ => trivial) (fun a _ => hf a)

theorem mapM {R : β → Prop} {f : α → Except ε β} :
    ∀ {l : List α}, (∀ a ∈ l, OkOnly R (f a)) → OkOnly (fun bs => ∀ b ∈ bs, R b) (l.mapM f)
  | [], _ => by
    rw [List.mapM_nil]
    exact ok (fun _ h => absurd h List.not_mem_nil)
  | a :: l, hf => by
    rw [List.mapM_cons]
    refine (hf a List.mem_cons_self).bind (fun b hb => ?_)
    refine (mapM (fun a' ha' => hf a' (List.mem_cons_of_mem a ha'))).bind (fun bs hbs => ok ?_)
    intro b' hb'
    rcases List.mem_cons.mp hb' with rfl | hb'
    · exact hb
    · exact hbs b' hb'

theorem foldlM {f : β → α → Except ε β} (I : β → Prop) :
    ∀ {l : List α} {s : β}, (∀ t, ∀ a ∈ l, I t → OkOnly I (f t a)) → I s → OkOnly I (l.foldlM f s)
  | [], s, _, hs => by
    rw [List.foldlM_nil]
    exact ok hs
  | a :: l, s, hf, hs => by
    rw [List.foldlM_cons]
    refine (hf s a List.mem_cons_self hs).bind (fun t ht => ?_)
    exact foldlM I (fun u b hb => hf u b (List.mem_cons_of_mem a hb)) ht

end OkOnly

end QueryAdvisor
