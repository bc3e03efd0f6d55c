import OxideSfu.FiniteMaps
import OxideSfu.StepRuns

/-!
# Calls cut into critical sections

A call that takes several locks runs section by section, and sections of other threads run in
between. The proof rule for such calls: one assertion about the shared state and one for every point
between sections, which the sections of others must keep.
-/

namespace OxideSfu.CriticalSections

open FiniteMaps StepRuns FiniteMap List

universe u v w

/-- Calls on a shared state. `enter` runs the first section of a call and `resume` the next
section of a call that has reached a point. Both give the point reached then, or none when
the call has returned. -/
structure Machine (σ : Type u) (Call : Type v) (Point : Type w) where
  enter : Call → σ → σ × Option Point
  resume : Point → σ → σ × Option Point

structure Threads (σ : Type u) (Point : Type w) where
  shared : σ
  running : FiniteMap ℕ Point

inductive Event (Call : Type v)
  | enter (thread : ℕ) (call : Call)
  | resume (thread : ℕ)

def Event.thread {Call : Type v} : Event Call → ℕ
  | .enter thread _ => thread | .resume thread => thread

variable {σ : Type u} {Call : Type v} {Point : Type w} {thread : ℕ}

namespace Threads

def idle (s : σ) : Threads σ Point := ⟨s,.empty⟩

/-- A thread has changed the shared state and stands at its next point, if there is one. -/
def moveTo (c : Threads σ Point) (thread : ℕ) (result : σ × Option Point) :
    Threads σ Point :=
  match result with
  | (s,some point) => ⟨s,c.running.insert thread point⟩ | (s,none) => ⟨s,c.running.erase thread⟩

@[simp] theorem moveTo_shared (c : Threads σ Point) (t : ℕ) (r : σ × Option Point) :
    (c.moveTo t r).shared=r.1 := by
  obtain ⟨s,_ | point⟩ := r <;> rfl

theorem lookup_moveTo (c : Threads σ Point) (t : ℕ) (r : σ × Option Point) (o : ℕ) :
    (c.moveTo t r).running.lookup o =
      if o=t then r.2 else c.running.lookup o := by
  obtain ⟨s,_ | point⟩ := r <;> simp [moveTo]

theorem running_moveTo {c : Threads σ Point} {o : ℕ} {r : σ × Option Point} {x : Point}
    (h : (c.moveTo thread r).running.lookup o=some x) :
    o=thread ∧ r.2=some x ∨ o≠thread ∧ c.running.lookup o=some x := by
  rw [lookup_moveTo] at h
  split_ifs at h with ho
  · exact .inl ⟨ho,h⟩
  · exact .inr ⟨ho,h⟩

theorem moveTo_of_idle {c : Threads σ Point}
    (h : c.running.lookup thread=none) (s : σ) : c.moveTo thread (s,none)=⟨s,c.running⟩ :=
  congrArg (Threads.mk s) (erase_of_lookup_eq_none h)

end Threads

open Threads

namespace Machine

variable (m : Machine σ Call Point)

/-- What the section of an event does. A thread that is inside a call starts no other one,
and a thread outside has nothing to resume. -/
def ran (c : Threads σ Point) : Event Call→Option (σ × Option Point)
  | .enter thread call =>
    match c.running.lookup thread with
    | none => some (m.enter call c.shared) | some _ => none
  | .resume thread => (c.running.lookup thread).map (fun point => m.resume point c.shared)

def step (c : Threads σ Point) (event : Event Call) : Threads σ Point :=
  match m.ran c event with
  | some result => c.moveTo event.thread result | none => c

def run (c : Threads σ Point) (events : List (Event Call)) : Threads σ Point :=
  events.foldl m.step c

theorem run_append (c : Threads σ Point) (es l : List (Event Call)) :
    m.run c (es++l)=m.run (m.run c es) l :=
  foldl_append

@[simp] theorem run_concat (c : Threads σ Point) (es : List (Event Call))
    (e : Event Call) : m.run c (es++[e])=m.step (m.run c es) e :=
  m.run_append c es [e]

variable {c : Threads σ Point} {r : σ × Option Point} {call : Call} {x : Point}
  {events : List (Event Call)} {e : Event Call}

theorem step_of_ran (h : m.ran c e=some r) : m.step c e=c.moveTo e.thread r := by
  rw [step,h]

theorem step_cases (c : Threads σ Point) (e : Event Call) :
    m.step c e=c ∨ ∃r,m.ran c e=some r ∧ m.step c e=c.moveTo e.thread r := by
  cases h : m.ran c e with
  | none => exact .inl (by rw [step,h])
  | some r => exact .inr ⟨r,rfl,m.step_of_ran h⟩

/-- The section that ran is the first of a call or the one its thread stood before. -/
theorem ran_eq_some (h : m.ran c e=some r) :
    (∃call,e = .enter e.thread call ∧ r=m.enter call c.shared) ∨
      ∃x,e = .resume e.thread ∧ c.running.lookup e.thread=some x ∧ r=m.resume x c.shared := by
  cases e with
  | enter t call =>
    refine .inl ⟨call,rfl,?_⟩
    simp only [ran] at h
    split at h
    · exact (Option.some.inj h).symm
    · cases h
  | resume t =>
    obtain ⟨x,hp,hr⟩ := Option.map_eq_some_iff.mp h
    exact .inr ⟨x,rfl,hp,hr.symm⟩

theorem idle_of_ran_enter (h : m.ran c (.enter thread call)=some r) :
    c.running.lookup thread=none := by
  cases hr : c.running.lookup thread with
  | none => rfl
  | some x =>
    rw [ran,hr] at h
    cases h

theorem idle_moveTo (s : σ) (t : ℕ) (x : Point) (r : σ) :
    (⟨s,empty.insert t x⟩ : Threads σ Point).moveTo t (r,none) = .idle r := by
  have hb : ((empty : FiniteMap ℕ Point).insert t x).erase t = .empty := by
    ext1 other
    by_cases ho : other=t <;> simp [ho]
  rw [moveTo,hb,idle]

theorem run_alone_once {s r : σ} (he : m.enter call s=(r,none)) (t : ℕ) :
    m.run (.idle s) [.enter t call] = .idle r := by
  have hran : m.ran (.idle s) (.enter t call)=some (r,none) := congrArg some he
  change m.step (.idle s) (.enter t call)=_
  rw [m.step_of_ran hran]
  exact moveTo_of_idle rfl r

/-- A call of two sections that runs alone is their composition. -/
theorem run_alone {s between : σ} {r : σ} (he : m.enter call s=(between,some x))
    (hr : m.resume x between=(r,none)) (t : ℕ) :
    m.run (.idle s) [.enter t call,.resume t] = .idle r := by
  have hf : m.step (.idle s) (.enter t call)=⟨between,empty.insert t x⟩ := by
    have hran : m.ran (.idle s) (.enter t call)=some (between,some x) := congrArg some he
    rw [m.step_of_ran hran]
    rfl
  have hran : m.ran ⟨between,empty.insert t x⟩ (.resume t)=some (r,none) := by
    simp [ran,hr]
  change m.step (m.step (.idle s) (.enter t call)) (.resume t)=_
  rw [hf,m.step_of_ran hran]
  exact idle_moveTo between t x r

theorem step_resume (h : c.running.lookup thread=some x) :
    m.step c (.resume thread)=c.moveTo thread (m.resume x c.shared) := by
  have hran : m.ran c (.resume thread)=some (m.resume x c.shared) := by
    rw [ran,h,Option.map_some]
  exact m.step_of_ran hran

/-- A thread stands at its point until it is resumed. -/
theorem running_run (h : c.running.lookup thread=some x) (he : .resume thread∉events) :
    (m.run c events).running.lookup thread=some x := by
  induction events using reverseRecOn with
  | nil => exact h
  | append_singleton events event ih =>
    have hb := ih (fun hmem => he (mem_append_left _ hmem))
    rw [m.run_concat]
    obtain hs | ⟨result,hran,hs⟩ := m.step_cases (m.run c events) event
    · rw [hs]
      exact hb
    · have ho : thread≠event.thread := by
        intro heq
        cases event with
        | enter other call =>
          rw [Event.thread] at heq
          rw [ran,← heq,hb] at hran
          cases hran
        | resume other =>
          rw [Event.thread] at heq
          exact he (by simp [heq])
      rw [hs,lookup_moveTo,if_neg ho]
      exact hb

/-- What the sections of the events that may happen keep, holds after every run of them. -/
theorem run_invariant (Inv : Threads σ Point→Prop) (allowed : Threads σ Point → Event Call→Prop)
    (hk : ∀c event result,Inv c → allowed c event → m.ran c event=some result →
      Inv (c.moveTo event.thread result)) (h : Inv c)
    (ha : AtEveryStep (fun earlier event => allowed (m.run c earlier) event) events) :
    Inv (m.run c events) := by
  refine ha.induction h (fun events event hb hev => ?_)
  rw [m.run_concat]
  obtain hs | ⟨result,hran,hs⟩ := m.step_cases (m.run c events) event
  · rw [hs]
    exact hb
  · rw [hs]
    exact hk _ event result hb hev hran

/-- The sections that are left of a call, with nothing between them. -/
inductive Completes : Option Point → σ → σ→Prop
  | returned {s : σ} : Completes none s s
  | resumed {point : Point} {s result : σ}
      (h : Completes (m.resume point s).2 (m.resume point s).1 result) :
      Completes (some point) s result

variable {m}

theorem Completes.run {reached : Option Point} {s r : σ} (h : m.Completes reached s r)
    (hs : c.shared=s) (ha : ∀o,c.running.lookup o=if o=thread then reached else none) :
    ∃sections,m.run c (replicate sections (.resume thread)) = .idle r := by
  induction h generalizing c with
  | returned =>
    have he : c.running = .empty := by
      ext1 o
      rw [ha o,ite_self]
      rfl
    exact ⟨0,by rw [← hs,idle,← he]; rfl⟩
  | @resumed x s r _ ih =>
    have hst : m.step c (.resume thread)=c.moveTo thread (m.resume x s) := by
      rw [m.step_resume ((ha thread).trans (if_pos rfl)),hs]
    obtain ⟨sections,hr⟩ := ih (c := m.step c (.resume thread))
      (by rw [hst,moveTo_shared])
      (by
        intro o
        rw [hst,lookup_moveTo]
        split_ifs with ho
        · rfl
        · rw [ha o,if_neg ho])
    exact ⟨sections+1,hr⟩

theorem Completes.run_enter {call : Call} {s r : σ}
    (h : m.Completes (m.enter call s).2 (m.enter call s).1 r) (t : ℕ) :
    ∃sections,m.run (.idle s) (.enter t call::replicate sections (.resume t)) = .idle r := by
  have hran : m.ran (.idle s) (.enter t call)=some (m.enter call s) := rfl
  have hs := m.step_of_ran hran
  obtain ⟨sections,hr⟩ := h.run (c := m.step (.idle s) (.enter t call))
    (by rw [hs,moveTo_shared])
    (fun o => by rw [hs,lookup_moveTo]; rfl)
  exact ⟨sections,hr⟩

end Machine

/-- The assertion about the shared state holds, and so does the one of every point that a
running call has reached. -/
def Annotated (inv : σ→Prop) (at_ : Point → σ→Prop) (c : Threads σ Point) : Prop :=
  inv c.shared ∧ ∀thread point,c.running.lookup thread=some point → at_ point c.shared

/-- A section has to establish the assertion of the point it leads to and to keep the ones of
the points where other calls stand. -/
structure Keeps (inv : σ→Prop) (at_ : Point → σ→Prop) (c : Threads σ Point)
    (thread : ℕ) (result : σ × Option Point) : Prop where
  shared : inv result.1
  reached : ∀point,result.2=some point → at_ point result.1
  others : ∀other point,other≠thread → c.running.lookup other=some point →
    at_ point result.1

variable {m : Machine σ Call Point} {inv : σ→Prop} {at_ : Point → σ→Prop} {c : Threads σ Point}

theorem Keeps.annotated {r : σ × Option Point} (h : Keeps inv at_ c thread r) :
    Annotated inv at_ (c.moveTo thread r) := by
  refine ⟨?_,?_⟩
  · rw [moveTo_shared]
    exact h.shared
  · intro o x hp
    rw [moveTo_shared]
    obtain ⟨-,hr⟩ | ⟨ho,hb⟩ := running_moveTo hp
    · exact h.reached x hr
    · exact h.others o x ho hb

variable {es : List (Event Call)}

/-- What every section keeps, given what is known of the steps of a run, holds after the
run. -/
theorem Annotated.run (h : Annotated inv at_ c) {allowed : Threads σ Point → Event Call→Prop}
    (ha : AtEveryStep (fun ea e => allowed (m.run c ea) e) es)
    (hk : ∀c e r,Annotated inv at_ c → allowed c e → m.ran c e=some r →
      Keeps inv at_ c e.thread r) :
    Annotated inv at_ (m.run c es) :=
  m.run_invariant (Annotated inv at_) allowed
    (fun c e r hc he hran => (hk c e r hc he hran).annotated) h
    ha

/-- The same for what is known of the events alone. -/
theorem Annotated.run_of_forall (h : Annotated inv at_ c) {allowed : Event Call→Prop}
    (ha : ∀e∈es,allowed e) (hk : ∀c e r,Annotated inv at_ c → allowed e →
      m.ran c e=some r → Keeps inv at_ c e.thread r) :
    Annotated inv at_ (m.run c es) := by
  have hs : AtEveryStep (fun ea e =>
      (fun (_ : Threads σ Point) e => allowed e) (m.run c ea) e) es := by
    rintro ea e l rfl
    exact ha e (by simp)
  exact h.run hs hk

end OxideSfu.CriticalSections
