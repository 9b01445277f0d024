import Mathlib
/-!
# Computations that may fail

Inversion of a successful bind in `Except`, and reading the result of a computation that is
known to succeed. Later proofs peel `do` blocks with `bind_eq_ok` and never unfold `bind`.
A successful `mapM`, in `Except` or in `Option`, got each result from some element; one whose
function gives every element back gives the list back. Renaming the faults of a computation
(`mapError`) commutes with `bind`, `map` and `mapM`.
-/

namespace Keyframes

theorem bind_eq_ok {ε α β : Type} {x : Except ε α} {f : α → Except ε β} {b : β} :
    x >>= f = .ok b ↔ ∃ a, x = .ok a ∧ f a = .ok b := by
  cases x with
  | error e => exact ⟨fun failed => (nomatch failed), fun ⟨_, failed, _⟩ => (nomatch failed)⟩
  | ok a => exact ⟨fun done => ⟨a, rfl, done⟩, fun ⟨_, same, done⟩ => by cases same; exact done⟩

theorem ok_bind {ε α β : Type} (a : α) (f : α → Except ε β) : (Except.ok a : Except ε α) >>= f = f a :=
  rfl

theorem error_bind {ε α β : Type} (e : ε) (f : α → Except ε β) :
    (Except.error e : Except ε α) >>= f = .error e :=
  rfl

/-- A computation that succeeds gives its result. -/
theorem eq_ok_of_toBool {ε α : Type} {x : Except ε α} (d : α) (succeeded : x.toBool = true) :
    x = .ok (x.toOption.getD d) := by
  cases x with
  | error e => cases succeeded
  | ok a => rfl

theorem pair_eq_ok_of_toBool {ε α σ : Type} {r : Except ε α × σ} (d : α)
    (succeeded : r.1.toBool = true) : r = (.ok (r.1.toOption.getD d), r.2) :=
  Prod.ext (eq_ok_of_toBool d succeeded) rfl

/-- A run that fails gives its fault and the state it leaves. -/
theorem pair_eq_error_of_toBool {ε α σ : Type} {r : Except ε α × σ} (failed : r.1.toBool = false) :
    ∃ e, r = (.error e, r.2) := by
  obtain ⟨x, s⟩ := r
  cases x with
  | error e => exact ⟨e, rfl⟩
  | ok a => cases failed

theorem mapError_eq_ok {ε ε' α : Type} {x : Except ε α} {g : ε → ε'} {a : α} :
    x.mapError g = .ok a ↔ x = .ok a := by
  cases x <;> simp [Except.mapError]

@[simp] theorem mapError_ok {ε ε' α : Type} (a : α) (g : ε → ε') :
    (Except.ok a : Except ε α).mapError g = .ok a := rfl

@[simp] theorem mapError_pure {ε ε' α : Type} (a : α) (g : ε → ε') :
    (pure a : Except ε α).mapError g = pure a := rfl

theorem mapError_bind {ε ε' α β : Type} (x : Except ε α) (f : α → Except ε β) (g : ε → ε') :
    (x >>= f).mapError g = x.mapError g >>= fun a => (f a).mapError g := by
  cases x <;> rfl

theorem mapError_map {ε ε' α β : Type} (f : α → β) (x : Except ε α) (g : ε → ε') :
    (f <$> x).mapError g = f <$> x.mapError g := by
  cases x <;> rfl

theorem mapError_mapM {ε ε' α β : Type} (f : α → Except ε β) (g : ε → ε') :
    ∀ l : List α, (l.mapM f).mapError g = l.mapM fun a => (f a).mapError g
  | [] => rfl
  | a :: rest => by
    simp only [List.mapM_cons, mapError_bind, mapError_mapM f g rest]
    rfl

theorem mapM_eq_ok_self {ε α : Type} {f : α → Except ε α} {l : List α}
    (fixed : ∀ a ∈ l, f a = .ok a) : l.mapM f = .ok l := by
  induction l with
  | nil => rfl
  | cons a rest ih =>
    rw [List.mapM_cons, fixed a List.mem_cons_self, ok_bind,
      ih fun b mem => fixed b (List.mem_cons_of_mem a mem)]
    rfl

theorem exists_of_mapM_eq_ok {ε α β : Type} {f : α → Except ε β} :
    ∀ {l : List α} {l' : List β}, l.mapM f = .ok l' → ∀ b ∈ l', ∃ a ∈ l, f a = .ok b
  | [], l', done => by
    cases done
    intro b mem
    cases mem
  | a :: rest, l', done => by
    rw [List.mapM_cons, bind_eq_ok] at done
    obtain ⟨b, head, done⟩ := done
    rw [bind_eq_ok] at done
    obtain ⟨bs, tail, done⟩ := done
    cases done
    intro c mem
    rcases List.mem_cons.1 mem with rfl | later
    · exact ⟨a, List.mem_cons_self, head⟩
    · obtain ⟨x, kept, found⟩ := exists_of_mapM_eq_ok tail c later
      exact ⟨x, List.mem_cons_of_mem a kept, found⟩

/-- A successful `mapM` succeeded on every element. -/
theorem ok_of_mapM_eq_ok {ε α β : Type} {f : α → Except ε β} :
    ∀ {l : List α} {l' : List β}, l.mapM f = .ok l' → ∀ a ∈ l, ∃ b, f a = .ok b
  | [], _, _ => fun a mem => by cases mem
  | a :: rest, l', done => by
    rw [List.mapM_cons, bind_eq_ok] at done
    obtain ⟨b, head, done⟩ := done
    rw [bind_eq_ok] at done
    obtain ⟨bs, tail, -⟩ := done
    intro c mem
    rcases List.mem_cons.1 mem with rfl | later
    · exact ⟨b, head⟩
    · exact ok_of_mapM_eq_ok tail c later

theorem length_of_mapM_eq_ok {ε α β : Type} {f : α → Except ε β} :
    ∀ {l : List α} {l' : List β}, l.mapM f = .ok l' → l'.length = l.length
  | [], l', done => by
    cases done
    rfl
  | a :: rest, l', done => by
    rw [List.mapM_cons, bind_eq_ok] at done
    obtain ⟨b, -, done⟩ := done
    rw [bind_eq_ok] at done
    obtain ⟨bs, tail, done⟩ := done
    cases done
    rw [List.length_cons, List.length_cons, length_of_mapM_eq_ok tail]

/-- A `mapM` whose function succeeds on every element succeeds, with as many results, each
from an element. -/
theorem exists_mapM_eq_ok {ε α β : Type} {f : α → Except ε β} {P : β → Prop} :
    ∀ {l : List α}, (∀ a ∈ l, ∃ b, f a = .ok b ∧ P b) →
      ∃ l', l.mapM f = .ok l' ∧ l'.length = l.length ∧ ∀ b ∈ l', P b
  | [], _ => ⟨[], rfl, rfl, nofun⟩
  | a :: rest, each => by
    obtain ⟨b, head, holds⟩ := each a List.mem_cons_self
    obtain ⟨bs, tail, length, rest_hold⟩ :=
      exists_mapM_eq_ok fun a' mem => each a' (List.mem_cons_of_mem a mem)
    refine ⟨b :: bs, ?_, by rw [List.length_cons, List.length_cons, length], ?_⟩
    · rw [List.mapM_cons, head, ok_bind, tail]
      rfl
    · intro c mem
      rcases List.mem_cons.1 mem with rfl | later
      · exact holds
      · exact rest_hold c later

theorem mapM_isSome_iff {α β : Type} {f : α → Option β} :
    ∀ {l : List α}, (l.mapM f).isSome ↔ ∀ a ∈ l, (f a).isSome
  | [] => by simp
  | a :: rest => by
    rw [List.mapM_cons, List.forall_mem_cons, ← mapM_isSome_iff (l := rest)]
    cases f a <;> cases rest.mapM f <;> simp

theorem exists_of_mapM_eq_some {α β : Type} {f : α → Option β} :
    ∀ {l : List α} {l' : List β}, l.mapM f = some l' → ∀ b ∈ l', ∃ a ∈ l, f a = some b
  | [], l', done => by
    cases done
    intro b mem
    cases mem
  | a :: rest, l', done => by
    rw [List.mapM_cons, Option.bind_eq_bind, Option.bind_eq_some_iff] at done
    obtain ⟨b, head, done⟩ := done
    rw [Option.bind_eq_bind, Option.bind_eq_some_iff] at done
    obtain ⟨bs, tail, done⟩ := done
    cases done
    intro c mem
    rcases List.mem_cons.1 mem with rfl | later
    · exact ⟨a, List.mem_cons_self, head⟩
    · obtain ⟨x, kept, found⟩ := exists_of_mapM_eq_some tail c later
      exact ⟨x, List.mem_cons_of_mem a kept, found⟩

theorem ne_nil_of_mapM_eq_some {α β : Type} {f : α → Option β} {a : α} {rest : List α}
    {l' : List β} (done : (a :: rest).mapM f = some l') : l' ≠ [] := by
  rw [List.mapM_cons, Option.bind_eq_bind, Option.bind_eq_some_iff] at done
  obtain ⟨b, _, done⟩ := done
  rw [Option.bind_eq_bind, Option.bind_eq_some_iff] at done
  obtain ⟨bs, _, done⟩ := done
  cases done
  exact List.cons_ne_nil b bs

theorem mapM_map_eq_some {α β : Type} {f : β → Option α} {g : α → β} :
    ∀ {l : List α}, (∀ a ∈ l, f (g a) = some a) → (l.map g).mapM f = some l
  | [], _ => rfl
  | a :: rest, inverse => by
    rw [List.map_cons, List.mapM_cons, inverse a List.mem_cons_self,
      mapM_map_eq_some fun b mem => inverse b (List.mem_cons_of_mem a mem)]
    rfl

theorem mapM_map_cons_eq_some {α β : Type} {f : β → Option α} {g : α → β} {a : α} {l : List α}
    (inverse : ∀ x ∈ a :: l, f (g x) = some x) : (g a :: l.map g).mapM f = some (a :: l) :=
  mapM_map_eq_some inverse

end Keyframes
