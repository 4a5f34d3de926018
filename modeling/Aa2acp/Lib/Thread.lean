import Aa2acp.Lib.Machine
import Mathlib.Data.List.Basic

/-!
# Threads on a shared state

A thread is a tree of atomic sections.  A section can be entered when it is ready (a mutex
is free), it changes the shared state, and how the thread goes on depends on the state and
on an answer of type `E` from outside (what a system call returned).  One and the same
thread can be run on its own (`run`), or in a pool with others in any order (`Pool.step`).

`Guarded` is what a thread guarantees in every order: each of its sections keeps an
invariant and a guarantee, provided that what the others did in between was within its
rely.  The rules follow the construction of a thread.  Guarantees that lie within the
relies of all others (`Discipline`) add up to a pool that keeps the invariant
(`Governed.run`).  `Within` and `WithinUntil` are about what the sections of a thread do to
the state, whoever else runs.  On its own a thread is a sequential program, and `Ends` is
its total correctness (`Ends.run`).
-/

namespace Aa2acp

inductive Thread (E S α : Type) where
  | done (value : α)
  | atomic (ready : S → Bool) (effect : E → S → S) (next : E → S → Thread E S α)

namespace Thread

variable {E S Q R α β : Type}

/-- Go on with another thread. -/
def bind : Thread E S α → (α → Thread E S β) → Thread E S β
  | done value, f => f value
  | atomic ready effect next, f => atomic ready effect fun answer s => (next answer s).bind f

instance : Monad (Thread E S) where
  pure := done
  bind := bind

/-- One section that yields a value. -/
def atomicallyWhen (ready : S → Bool) (f : E → S → α × S) : Thread E S α :=
  atomic ready (fun answer s => (f answer s).2) fun answer s => done (f answer s).1

/-- One section that can always be entered. -/
def atomically (f : E → S → α × S) : Thread E S α := atomicallyWhen (fun _ => true) f

/-- Run a thread on its own, with one answer for each section: what is left of it and the
state, when there are no more answers, it has come to its end or it can not go on. -/
def run : Thread E S α → List E → S → Thread E S α × S
  | done value, _, s => (done value, s)
  | atomic ready effect next, [], s => (atomic ready effect next, s)
  | atomic ready effect next, answer :: answers, s =>
      if ready s then (next answer s).run answers (effect answer s)
      else (atomic ready effect next, s)

@[simp] theorem run_nil (t : Thread E S α) (s : S) : t.run [] s = (t, s) := by
  cases t <;> rfl

theorem run_atomic {ready : S → Bool} {effect : E → S → S} {next : E → S → Thread E S α} {s : S}
    (h : ready s = true) (answer : E) (answers : List E) :
    (atomic ready effect next).run (answer :: answers) s =
      (next answer s).run answers (effect answer s) := if_pos h

/-! ## What a thread guarantees -/

structure Contract (S : Type) where
  inv : S → Prop
  /-- The steps that are looked at; the others may do anything. -/
  allowed : S → S → Prop
  rely : S → S → Prop
  guarantee : S → S → Prop
  rely_refl : ∀ s, rely s s
  rely_trans : ∀ {s middle s'}, rely s middle → rely middle s' → rely s s'

/-- From this state on the thread keeps the contract, and `post` holds of its value and the
states after it. -/
def Guarded (c : Contract S) : Thread E S α → (α → S → Prop) → S → Prop
  | done value, post, s => ∀ s', c.rely s s' → post value s'
  | atomic ready effect next, post, s =>
      ∀ s', c.rely s s' → c.inv s' → ready s' = true → ∀ answer,
        c.allowed s' (effect answer s') →
          c.inv (effect answer s') ∧ c.guarantee s' (effect answer s') ∧
            Guarded c (next answer s') post (effect answer s')

variable {c : Contract S} {t : Thread E S α} {post : α → S → Prop} {s s' : S}

/-- What the others do within the rely does not matter. -/
theorem Guarded.of_rely (h : Guarded c t post s) (hrely : c.rely s s') : Guarded c t post s' := by
  cases t with
  | done value => exact fun later hlater => h later (c.rely_trans hrely hlater)
  | atomic ready effect next => exact fun later hlater => h later (c.rely_trans hrely hlater)

theorem Guarded.mono {post' : α → S → Prop} (h : Guarded c t post s)
    (hpost : ∀ value s, post value s → post' value s) : Guarded c t post' s := by
  induction t generalizing s with
  | done value => exact fun later hlater => hpost value later (h later hlater)
  | atomic ready effect next ih =>
      intro later hlater hinv hready answer hallowed
      obtain ⟨hkeeps, hguarantee, hnext⟩ := h later hlater hinv hready answer hallowed
      exact ⟨hkeeps, hguarantee, ih answer later hnext⟩

/-- The rule for `pure`. -/
theorem guarded_pure {value : α} (h : ∀ s', c.rely s s' → post value s') :
    Guarded c (pure value : Thread E S α) post s := h

/-- The rule for `>>=`. -/
theorem Guarded.bind {f : α → Thread E S β} {post : β → S → Prop}
    (h : Guarded c t (fun value s => Guarded c (f value) post s) s) :
    Guarded c (t >>= f) post s := by
  show Guarded c (t.bind f) post s
  induction t generalizing s with
  | done value => exact h s (c.rely_refl s)
  | atomic ready effect next ih =>
      intro later hlater hinv hready answer hallowed
      obtain ⟨hkeeps, hguarantee, hnext⟩ := h later hlater hinv hready answer hallowed
      exact ⟨hkeeps, hguarantee, ih answer later hnext⟩

/-- The rule for a section, followed by the rest of the thread. -/
theorem guarded_atomicallyWhen {ready : S → Bool} {f : E → S → α × S} {g : α → Thread E S β}
    {post : β → S → Prop}
    (h : ∀ s', c.rely s s' → c.inv s' → ready s' = true → ∀ answer,
      c.allowed s' (f answer s').2 →
        c.inv (f answer s').2 ∧ c.guarantee s' (f answer s').2 ∧
          Guarded c (g (f answer s').1) post (f answer s').2) :
    Guarded c (atomicallyWhen ready f >>= g) post s := h

theorem guarded_atomically {f : E → S → α × S} {g : α → Thread E S β} {post : β → S → Prop}
    (h : ∀ s', c.rely s s' → c.inv s' → ∀ answer, c.allowed s' (f answer s').2 →
      c.inv (f answer s').2 ∧ c.guarantee s' (f answer s').2 ∧
        Guarded c (g (f answer s').1) post (f answer s').2) :
    Guarded c (atomically f >>= g) post s :=
  guarded_atomicallyWhen fun s' hrely hinv _ => h s' hrely hinv

/-! ## Threads whose sections are all alike -/

/-- Whatever the state and the answers, every section of the thread stays within `r`. -/
def Within (r : S → S → Prop) : Thread E S α → Prop
  | done _ => True
  | atomic _ effect next => ∀ s answer, r s (effect answer s) ∧ Within r (next answer s)

variable {r : S → S → Prop}

theorem within_pure (value : α) : Within r (pure value : Thread E S α) := trivial

theorem Within.mono {r' : S → S → Prop} (h : Within r t) (hr : ∀ s s', r s s' → r' s s') :
    Within r' t := by
  induction t with
  | done value => trivial
  | atomic ready effect next ih =>
      intro s answer
      exact ⟨hr _ _ (h s answer).1, ih answer s (h s answer).2⟩

theorem Within.bind {f : α → Thread E S β} (h : Within r t) (hf : ∀ value, Within r (f value)) :
    Within r (t >>= f) := by
  show Within r (t.bind f)
  induction t with
  | done value => exact hf value
  | atomic ready effect next ih =>
      intro s answer
      exact ⟨(h s answer).1, ih answer s (h s answer).2⟩

theorem within_atomicallyWhen {ready : S → Bool} {f : E → S → α × S}
    (h : ∀ s answer, r s (f answer s).2) : Within r (atomicallyWhen ready f) :=
  fun s answer => ⟨h s answer, trivial⟩

theorem within_atomically {f : E → S → α × S} (h : ∀ s answer, r s (f answer s).2) :
    Within r (atomically f) := within_atomicallyWhen h

theorem Within.run (h : Within r t) (hrefl : ∀ s, r s s) (htrans : ∀ s middle s', r s middle → r middle s' → r s s')
    (answers : List E) (s : S) : r s (t.run answers s).2 := by
  induction t generalizing answers s with
  | done value => exact hrefl s
  | atomic ready effect next ih =>
      cases answers with
      | nil => exact hrefl s
      | cons answer answers =>
          simp only [Thread.run]
          split
          · exact htrans s _ _ (h s answer).1 (ih answer s (h s answer).2 answers _)
          · exact hrefl s

/-- Such a thread keeps a contract that `r` implies, also when it takes a fact `stays` for
it that no one else destroys. -/
theorem Within.guarded (h : Within r t) (stays : S → Prop)
    (hrely : ∀ s s', c.rely s s' → stays s → stays s')
    (hstep : ∀ s s', c.inv s → stays s → r s s' → c.inv s' ∧ c.guarantee s s' ∧ stays s')
    (hpost : ∀ value s, stays s → post value s) (hs : stays s) : Guarded c t post s := by
  induction t generalizing s with
  | done value => exact fun later hlater => hpost value later (hrely s later hlater hs)
  | atomic ready effect next ih =>
      intro later hlater hinv _ answer _
      obtain ⟨hr, hnext⟩ := h later answer
      obtain ⟨hkeeps, hguarantee, hstays⟩ := hstep later _ hinv (hrely s later hlater hs) hr
      exact ⟨hkeeps, hguarantee, ih answer later hnext hstays⟩

/-- The thread stays within `r` until it is one of `goal`, if it ever is. -/
def WithinUntil (r : S → S → Prop) (goal : Thread E S α → Prop) : Thread E S α → Prop
  | done _ => True
  | atomic ready effect next =>
      goal (atomic ready effect next) ∨
        ∀ s answer, r s (effect answer s) ∧ WithinUntil r goal (next answer s)

theorem withinUntil_of_goal {goal : Thread E S α → Prop} (h : goal t) : WithinUntil r goal t := by
  cases t with
  | done value => trivial
  | atomic ready effect next => exact Or.inl h

theorem Within.until (h : Within r t) (goal : Thread E S α → Prop) : WithinUntil r goal t := by
  induction t with
  | done value => trivial
  | atomic ready effect next ih =>
      exact Or.inr fun s answer => ⟨(h s answer).1, ih answer s (h s answer).2⟩

theorem WithinUntil.bind {goal : Thread E S α → Prop} {goal' : Thread E S β → Prop}
    {f : α → Thread E S β} (h : WithinUntil r goal t) (hgoal : ∀ t, goal t → goal' (t >>= f))
    (hf : ∀ value, WithinUntil r goal' (f value)) : WithinUntil r goal' (t >>= f) := by
  show WithinUntil r goal' (t.bind f)
  induction t with
  | done value => exact hf value
  | atomic ready effect next ih =>
      rcases h with hnow | hlater
      · exact withinUntil_of_goal (hgoal _ hnow)
      · exact Or.inr fun s answer => ⟨(hlater s answer).1, ih answer s (hlater s answer).2⟩

/-! ## A thread on its own -/

/-- Nobody else does anything, and the thread keeps an invariant. -/
def Contract.alone (inv : S → Prop) : Contract S where
  inv := inv
  allowed := fun _ _ => True
  rely := Eq
  guarantee := fun _ _ => True
  rely_refl := Eq.refl
  rely_trans := Eq.trans

/-- What is kept in every order is kept by a thread on its own. -/
theorem Guarded.run_alone {inv : S → Prop} {answers : List E}
    (h : Guarded (.alone inv) t post s) (hinv : inv s) : inv (t.run answers s).2 := by
  induction t generalizing answers s with
  | done value => exact hinv
  | atomic ready effect next ih =>
      cases answers with
      | nil => exact hinv
      | cons answer answers =>
          simp only [run]
          split
          · rename_i hready
            obtain ⟨hkeeps, -, hnext⟩ := h s rfl hinv hready answer trivial
            exact ih answer s hnext hkeeps
          · exact hinv

/-- On its own the thread comes to its end, whatever the answers are, and then `post` holds
of its value and the state. -/
def Ends (post : α → S → Prop) : Thread E S α → S → Prop
  | done value, s => post value s
  | atomic ready effect next, s =>
      ready s = true ∧ ∀ answer, Ends post (next answer s) (effect answer s)

theorem Ends.mono {post' : α → S → Prop} (h : Ends post t s)
    (hpost : ∀ value s, post value s → post' value s) : Ends post' t s := by
  induction t generalizing s with
  | done value => exact hpost value s h
  | atomic ready effect next ih => exact ⟨h.1, fun answer => ih answer s (h.2 answer)⟩

theorem Ends.bind {f : α → Thread E S β} {post : β → S → Prop}
    (h : Ends (fun value s => Ends post (f value) s) t s) : Ends post (t >>= f) s := by
  show Ends post (t.bind f) s
  induction t generalizing s with
  | done value => exact h
  | atomic ready effect next ih => exact ⟨h.1, fun answer => ih answer s (h.2 answer)⟩

theorem ends_atomically {f : E → S → α × S} (h : ∀ answer, post (f answer s).1 (f answer s).2) :
    Ends post (atomically f) s := ⟨rfl, h⟩

theorem Ends.run (h : Ends post t s) (answers : ℕ → E) :
    ∃ count value s', t.run ((List.range count).map answers) s = (done value, s') ∧
      post value s' := by
  induction t generalizing s answers with
  | done value => exact ⟨0, value, s, rfl, h⟩
  | atomic ready effect next ih =>
      obtain ⟨count, value, s', hrun, hpost⟩ :=
        ih (answers 0) s (h.2 (answers 0)) (fun n => answers (n + 1))
      refine ⟨count + 1, value, s', ?_, hpost⟩
      rw [List.range_succ_eq_map, List.map_cons, List.map_map, Thread.run, if_pos h.1]
      exact hrun

end Thread

/-! ## Pools -/

/-- The shared state, and all threads there were; a thread's index is its name. -/
structure Pool (E S R : Type) where
  state : S
  threads : List (Thread E S R) := []

/-- A thread for a new request, or the next section of a thread. -/
inductive PoolEvent (Q E : Type) where
  | arrive (request : Q)
  | advance (index : ℕ) (answer : E)
deriving DecidableEq, Repr

namespace Pool

variable {E S Q R : Type}

def step (handle : ℕ → Q → Thread E S R) : PoolEvent Q E → Pool E S R → Option (Pool E S R)
  | .arrive request, p =>
      some { p with threads := p.threads ++ [handle p.threads.length request] }
  | .advance index answer, p =>
      match p.threads[index]? with
      | some (.atomic ready effect next) =>
          if ready p.state then
            some { state := effect answer p.state
                   threads := p.threads.set index (next answer p.state) }
          else none
      | _ => none

/-- A thread does its next section. -/
theorem step_advance {handle : ℕ → Q → Thread E S R} {p p' : Pool E S R} {index : ℕ} {answer : E}
    (h : p.step handle (.advance index answer) = some p') :
    ∃ ready effect next, p.threads[index]? = some (.atomic ready effect next) ∧
      ready p.state = true ∧
      p' = ⟨effect answer p.state, p.threads.set index (next answer p.state)⟩ := by
  simp only [step] at h
  split at h
  · rename_i ready effect next hthread
    split at h
    · rename_i hready
      cases h
      exact ⟨ready, effect, next, hthread, hready, rfl⟩
    · cases h
  · cases h

/-- All threads have come to their end. -/
def Quiet (p : Pool E S R) : Prop := ∀ t ∈ p.threads, ∃ value, t = .done value

instance (t : Thread E S R) : Decidable (∃ value, t = .done value) :=
  match t with
  | .done value => isTrue ⟨value, rfl⟩
  | .atomic .. => isFalse (by simp)

instance (p : Pool E S R) : Decidable p.Quiet :=
  inferInstanceAs (Decidable (∀ t ∈ p.threads, ∃ value, t = .done value))

end Pool

/-- What the threads of a pool promise each other. -/
structure Discipline (S : Type) where
  inv : S → Prop
  allowed : S → S → Prop
  rely : ℕ → S → S → Prop
  guarantee : ℕ → S → S → Prop
  /-- What holds before a thread begins. -/
  fresh : ℕ → S → Prop
  rely_refl : ∀ i s, rely i s s
  rely_trans : ∀ {i s middle s'}, rely i s middle → rely i middle s' → rely i s s'
  rely_of_guarantee : ∀ {i j s s'}, j ≠ i → inv s → guarantee i s s' → rely j s s'
  fresh_of_rely : ∀ {i s s'}, rely i s s' → fresh i s → fresh i s'

namespace Discipline

variable {E S Q R : Type}

/-- The part of one thread. -/
def contract (d : Discipline S) (i : ℕ) : Thread.Contract S where
  inv := d.inv
  allowed := d.allowed
  rely := d.rely i
  guarantee := d.guarantee i
  rely_refl := d.rely_refl i
  rely_trans := d.rely_trans

variable (d : Discipline S) (post : ℕ → R → S → Prop)

/-- Every thread will keep its part. -/
structure Governed (p : Pool E S R) : Prop where
  inv : d.inv p.state
  threads : ∀ i t, p.threads[i]? = some t → Thread.Guarded (d.contract i) t (post i) p.state
  fresh : ∀ i, p.threads.length ≤ i → d.fresh i p.state

variable {d post} {handle : ℕ → Q → Thread E S R} {p p' : Pool E S R} {event : PoolEvent Q E}

theorem governed_start {s : S} (hinv : d.inv s) (hfresh : ∀ i, d.fresh i s) :
    Governed d post (⟨s, []⟩ : Pool E S R) where
  inv := hinv
  threads := by simp
  fresh i _ := hfresh i

/-- What the section of a thread does, and that it keeps its part. -/
theorem Governed.advance (h : Governed d post p) {i : ℕ} {answer : E}
    (hstep : p.step handle (.advance i answer) = some p')
    (hallowed : d.allowed p.state p'.state) :
    d.guarantee i p.state p'.state ∧ Governed d post p' := by
  obtain ⟨ready, effect, next, hthread, hready, rfl⟩ := Pool.step_advance hstep
  obtain ⟨hinv, hguarantee, hnext⟩ := h.threads i _ hthread p.state (d.rely_refl i _) h.inv
    hready answer hallowed
  have hlt : i < p.threads.length := (List.getElem?_eq_some_iff.mp hthread).1
  refine ⟨hguarantee, hinv, ?_, ?_⟩
  · intro j t hj
    by_cases hji : j = i
    · subst hji
      rw [List.getElem?_set_self hlt] at hj
      cases hj
      exact hnext
    · rw [List.getElem?_set_ne (Ne.symm hji)] at hj
      exact (h.threads j t hj).of_rely (d.rely_of_guarantee hji h.inv hguarantee)
  · intro j hj
    rw [List.length_set] at hj
    exact d.fresh_of_rely (d.rely_of_guarantee (by omega) h.inv hguarantee) (h.fresh j hj)

theorem Governed.step (h : Governed d post p)
    (hhandle : ∀ i request s, d.inv s → d.fresh i s →
      Thread.Guarded (d.contract i) (handle i request) (post i) s)
    (hallowed : d.allowed p.state p'.state) (hstep : p.step handle event = some p') :
    Governed d post p' := by
  cases event with
  | arrive request =>
      cases hstep
      refine ⟨h.inv, ?_, ?_⟩
      · intro i t hi
        rcases Nat.lt_or_ge i p.threads.length with hlt | hge
        · rw [List.getElem?_append_left hlt] at hi
          exact h.threads i t hi
        · rw [List.getElem?_append_right hge] at hi
          have hname : i = p.threads.length := by
            have hlt := (List.getElem?_eq_some_iff.mp hi).1
            rw [List.length_singleton] at hlt
            omega
          subst hname
          rw [Nat.sub_self] at hi
          cases hi
          exact hhandle _ request p.state h.inv (h.fresh _ (Nat.le_refl _))
      · intro i hi
        rw [List.length_append, List.length_singleton] at hi
        exact h.fresh i (by omega)
  | advance i answer => exact (h.advance hstep hallowed).2

/-- The step of a pool is allowed. -/
def Allows (d : Discipline S) (handle : ℕ → Q → Thread E S R) (event : PoolEvent Q E)
    (p : Pool E S R) : Prop :=
  ∀ p', p.step handle event = some p' → d.allowed p.state p'.state

instance [∀ s s', Decidable (d.allowed s s')] (event : PoolEvent Q E) (p : Pool E S R) :
    Decidable (d.Allows handle event p) :=
  match h : p.step handle event with
  | some p' => decidable_of_iff (d.allowed p.state p'.state) (by simp [Allows, h])
  | none => isTrue fun p' hstep => by simp [h] at hstep

/-- The rule for runs of a pool whose steps are all allowed. -/
theorem Governed.run (h : Governed d post p)
    (hhandle : ∀ i request s, d.inv s → d.fresh i s →
      Thread.Guarded (d.contract i) (handle i request) (post i) s)
    {events : List (PoolEvent Q E)}
    (heach : Machine.Each (Pool.step handle) (d.Allows handle) events p)
    (hrun : Machine.run (Pool.step handle) events p = some p') : Governed d post p' :=
  heach.run_invariant (Governed d post)
    (fun _ _ next hgoverned hallows hstep => hgoverned.step hhandle (hallows next hstep) hstep)
    h hrun

end Discipline
end Aa2acp
