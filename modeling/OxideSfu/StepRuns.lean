import Mathlib.Data.List.DropRight

/-!
# Runs of a deterministic machine with outputs

A component that is mutated through calls is a function from state and input to output and next
state. The states reached by a list of inputs, the steps on the way, the log of outputs, and the
induction rules that carry one-step facts to whole runs.
-/

namespace OxideSfu.StepRuns

universe u v w

variable {σ : Type u} {ι : Type v} {ο : Type w}

structure Transition (σ : Type u) (ι : Type v) (ο : Type w) where
  before : σ
  input : ι
  output : ο
  after : σ

def transition (step : σ → ι → ο × σ) (s : σ) (i : ι) : Transition σ ι ο :=
  ⟨s,i,(step s i).1,(step s i).2⟩

def exec (step : σ → ι → ο × σ) : σ → List ι → σ
  | s, [] => s | s,i::is => exec step (step s i).2 is

def trace (step : σ → ι → ο × σ) : σ → List ι → List (Transition σ ι ο)
  | _, [] => [] | s,i::is => transition step s i::trace step (step s i).2 is

variable (step : σ → ι → ο × σ) (s : σ) (is : List ι)

@[simp] theorem exec_nil : exec step s []=s := rfl

@[simp] theorem exec_cons (i : ι) (is : List ι) :
    exec step s (i::is)=exec step (step s i).2 is := rfl

theorem exec_append (js : List ι) : exec step s (is++js)=exec step (exec step s is) js := by
  induction is generalizing s with
  | nil => rfl
  | cons i is ih => exact ih _

@[simp] theorem exec_concat (i : ι) : exec step s (is++[i])=(step (exec step s is) i).2 := by
  rw [exec_append]
  rfl

@[simp] theorem trace_nil : trace step s []=[] := rfl

@[simp] theorem trace_cons (i : ι) (is : List ι) :
    trace step s (i::is)=transition step s i::trace step (step s i).2 is := rfl

theorem trace_append (js : List ι) :
    trace step s (is++js)=trace step s is++trace step (exec step s is) js := by
  induction is generalizing s with
  | nil => rfl
  | cons i is ih => simp [ih]

theorem trace_concat (i : ι) :
    trace step s (is++[i])=trace step s is++[transition step (exec step s is) i] := by
  rw [trace_append]
  rfl

/-- The steps of a run are the steps taken after its proper prefixes. -/
theorem mem_trace_iff (t : Transition σ ι ο) :
    t∈trace step s is ↔ ∃pre i post,is=pre++i::post ∧ t=transition step (exec step s pre) i := by
  induction is generalizing s with
  | nil => simp
  | cons i is ih =>
    rw [trace_cons,List.mem_cons,ih]
    constructor
    · rintro (rfl | ⟨pre,j,post,rfl,rfl⟩)
      · exact ⟨[],i,is,rfl,rfl⟩
      · exact ⟨i::pre,j,post,rfl,rfl⟩
    · intro hs
      obtain ⟨pre,j,post,he,rfl⟩ := hs
      cases pre with
      | nil =>
        obtain ⟨rfl,rfl⟩ := List.cons.inj he
        exact .inl rfl
      | cons k pre =>
        obtain ⟨rfl,rfl⟩ := List.cons.inj he
        exact .inr ⟨pre,j,post,rfl,rfl⟩

theorem trace_getElem? (k : ℕ) :
    (trace step s is)[k]?=is[k]?.map (transition step (exec step s (is.take k))) := by
  induction is generalizing s k with
  | nil => simp
  | cons i is ih =>
    cases k with
    | zero => rfl
    | succ k => simp [ih]

theorem map_input_trace : (trace step s is).map Transition.input=is := by
  induction is generalizing s with
  | nil => rfl
  | cons i is ih => simp [ih,transition]

/-- A property kept by every step holds in every state reached from one that has it. -/
theorem exec_invariant (Inv : σ→Prop) (hst : ∀s i,Inv s → Inv (step s i).2) {s : σ} (hs : Inv s)
    (is : List ι) :
    Inv (exec step s is) := by
  induction is generalizing s with
  | nil => exact hs
  | cons i is ih => exact ih (hst s i hs)

def execWhile (step : σ → ι→Bool × σ) : σ → List ι→Bool × σ
  | s, [] => (true,s)
  | s, i::is =>
    match step s i with
    | (true,s) => execWhile step s is | (false,s) => (false,s)

/-- What the steps keep, the loop keeps, however far it gets. -/
theorem execWhile_invariant (step : σ → ι→Bool × σ) (Inv : σ→Prop) (is : List ι)
    (hst : ∀s,∀i∈is,Inv s → Inv (step s i).2) {s : σ} (hs : Inv s) :
    Inv (execWhile step s is).2 := by
  induction is generalizing s with
  | nil => exact hs
  | cons i is ih =>
    have hi := hst s i List.mem_cons_self hs
    rw [execWhile]
    split
    · next next heq =>
      rw [heq] at hi
      exact ih (fun t j hj => hst t j (List.mem_cons_of_mem i hj)) hi
    · next next heq =>
      rw [heq] at hi
      exact hi

/-- A property of the inputs seen so far and the next one, at every step of a run. -/
def AtEveryStep (P : List ι → ι→Prop) (is : List ι) : Prop :=
  ∀pre i post,is=pre++i::post → P pre i

variable (P : List ι → ι→Prop)

@[simp] theorem atEveryStep_nil : AtEveryStep P [] := by
  intro pre i post h
  simp at h

theorem atEveryStep_concat (is : List ι) (i : ι) :
    AtEveryStep P (is++[i]) ↔ AtEveryStep P is ∧ P is i := by
  constructor
  · intro h
    refine ⟨?_,h is i [] rfl⟩
    intro pre j post he
    exact h pre j (post++[i]) (by simp [he])
  · rintro ⟨his,hi⟩ pre j post he
    rcases List.eq_nil_or_concat post with rfl | ⟨post,k,rfl⟩
    · obtain ⟨rfl,hj⟩ := List.append_inj' he rfl
      obtain rfl : i=j := by simpa using hj
      exact hi
    · have he' : is++[i]=(pre++j::post)++[k] := by simpa using he
      exact his pre j post (List.append_inj' he' rfl).1

theorem AtEveryStep.of_append {P : List ι → ι→Prop} {is js : List ι}
    (h : AtEveryStep P (is++js)) : AtEveryStep P is := by
  intro pre i post he
  exact h pre i (post++js) (by simp [he])

/-- What the empty run has and every guarded step keeps holds after a guarded run. -/
@[elab_as_elim] theorem AtEveryStep.induction {P : List ι → ι→Prop} {is : List ι}
    (h : AtEveryStep P is) {Inv : List ι→Prop} (hn : Inv [])
    (hs : ∀is i,Inv is → P is i → Inv (is++[i])) : Inv is := by
  induction is using List.reverseRecOn with
  | nil => exact hn
  | append_singleton is i ih =>
    obtain ⟨his,hi⟩ := (atEveryStep_concat P is i).mp h
    exact hs is i (ih his) hi

theorem atEveryStep_iff_get (is : List ι) : AtEveryStep P is ↔ ∀k :
    Fin is.length,P (is.take k) (is.get k) := by
  constructor
  · intro h k
    exact h _ _ (is.drop (k+1)) (by simp)
  · rintro h pre i post rfl
    have hk := h ⟨pre.length,by simp⟩
    simpa using hk

instance (P : List ι → ι→Prop) [∀pre i,Decidable (P pre i)] (is : List ι) :
    Decidable (AtEveryStep P is) :=
  decidable_of_iff _ (atEveryStep_iff_get P is).symm

/-- A property that holds at first and not in the end is lost at some step. -/
theorem exists_last_step (P : List ι→Prop) (h : P []) {is : List ι} (hl : ¬P is) :
    ∃pre i post,is=pre++i::post ∧ P pre ∧ ¬P (pre++[i]) := by
  induction is using List.reverseRecOn with
  | nil => exact absurd h hl
  | append_singleton is i ih =>
    by_cases hp : P is
    · exact ⟨is,i,[],rfl,hp,hl⟩
    · obtain ⟨pre,j,post,rfl,hs⟩ := ih hp
      exact ⟨pre,j,post++[i],by simp,hs⟩

/-- A property that some earlier stage of a run had, with another one that every stage has had
from then on. -/
def Since (P Q : List ι→Prop) (is : List ι) : Prop :=
  ∃pre post,is=pre++post ∧ Q pre ∧ ∀mid,mid <+: post → P (pre++mid)

theorem Since.holds {P Q : List ι→Prop} {is : List ι} (h : Since P Q is) : P is := by
  obtain ⟨pre,post,rfl,-,hs⟩ := h
  exact hs post (List.prefix_refl post)

theorem Since.start {P Q : List ι→Prop} {is : List ι} (hP : P is) (hQ : Q is) : Since P Q is := by
  refine ⟨is,[],(List.append_nil is).symm,hQ,?_⟩
  intro mid hmid
  rw [List.prefix_nil.mp hmid,List.append_nil]
  exact hP

theorem Since.extend {P Q : List ι→Prop} {is : List ι} {i : ι} (h : Since P Q is)
    (hP : P (is++[i])) : Since P Q (is++[i]) := by
  obtain ⟨pre,post,rfl,hQ,hs⟩ := h
  refine ⟨pre,post++[i],List.append_assoc pre post [i],hQ,?_⟩
  intro mid hmid
  rcases List.prefix_concat_iff.mp hmid with rfl | hmid
  · rw [← List.append_assoc]
    exact hP
  · exact hs mid hmid

/-- The last stage starts it, or it was so before and the last stage keeps it. -/
theorem since_concat_iff (P Q : List ι→Prop) (is : List ι) (i : ι) :
    Since P Q (is++[i]) ↔ P (is++[i]) ∧ (Q (is++[i]) ∨ Since P Q is) := by
  constructor
  · intro h
    refine ⟨h.holds,?_⟩
    obtain ⟨pre,post,he,hQ,hs⟩ := h
    rcases List.eq_nil_or_concat post with rfl | ⟨post,j,rfl⟩
    · rw [List.append_nil] at he
      exact .inl (he ▸ hQ)
    · rw [List.concat_eq_append] at he hs
      rw [← List.append_assoc] at he
      obtain ⟨rfl,-⟩ := List.append_inj' he rfl
      refine .inr ⟨pre,post,rfl,hQ,fun mid hmid => hs mid ?_⟩
      exact hmid.trans (List.prefix_append post [j])
  · rintro ⟨hP,hQ | h⟩
    · exact .start hP hQ
    · exact h.extend hP

universe z

variable {α : Type z}

/-- Keeps the last mark of a run and counts the ticks since. -/
def markStep (mark : Transition σ ι ο→Option α) (tick : ι→Bool) (record : Option (α × ℕ))
    (t : Transition σ ι ο) : Option (α × ℕ) :=
  match mark t with
  | some a => some (a,0)
  | none => if tick t.input then record.map (fun r => (r.1,r.2+1)) else record

def lastMark (mark : Transition σ ι ο→Option α) (tick : ι→Bool) (step : σ → ι → ο × σ)
    (s : σ) (is : List ι) : Option (α × ℕ) :=
  (trace step s is).foldl (markStep mark tick) none

theorem lastMark_concat (mark : Transition σ ι ο→Option α) (tick : ι→Bool)
    (step : σ → ι → ο × σ) (s : σ) (is : List ι) (i : ι) :
    lastMark mark tick step s (is++[i]) =
      markStep mark tick (lastMark mark tick step s is) (transition step (exec step s is) i) := by
  rw [lastMark,trace_concat,List.foldl_append]
  rfl

variable {ω : Type w}

/-- Inputs that produced an output, paired with it, oldest first. -/
def emitted (step : σ → ι→Option ω × σ) : σ → List ι → List (ι × ω)
  | _, [] => [] | s,i::is => (step s i).1.toList.map (Prod.mk i)++emitted step (step s i).2 is

variable (step : σ → ι→Option ω × σ)

@[simp] theorem emitted_nil (s : σ) : emitted step s []=[] := rfl

theorem emitted_append (s : σ) (is js : List ι) :
    emitted step s (is++js)=emitted step s is++emitted step (exec step s is) js := by
  induction is generalizing s with
  | nil => rfl
  | cons i is ih => simp [emitted,ih]

theorem emitted_concat (s : σ) (is : List ι) (i : ι) :
    emitted step s (is++[i]) = emitted step s is++(step (exec step s is) i).1.toList.map
      (Prod.mk i) := by
  simp [emitted_append,emitted]

variable {ν : Type w}

/-- Steps that are quiet or leave something behind which no later step takes away. -/
structure LeavesTraces (view : σ → ν) (grows : σ → σ→Prop) (quiet : σ → ι→Prop)
    (step : σ → ι → σ) : Prop where
  refl : ∀s,grows s s
  trans : ∀s t u,grows s t → grows t u → grows s u
  grows_step : ∀s i,grows s (step s i)
  quiet_of_view : ∀s i t,grows (step s i) t → view t=view s → quiet s i
  view_step : ∀s i,quiet s i → view (step s i)=view s
  quiet_step : ∀s i j,quiet s i → (quiet (step s i) j ↔ quiet s j)

variable {view : σ → ν} {grows : σ → σ→Prop} {quiet : σ → ι→Prop} {step : σ → ι → σ}
  (h : LeavesTraces view grows quiet step)
include h

theorem LeavesTraces.grows_foldl (is : List ι) (s : σ) :
    grows s (is.foldl step s) := by
  induction is generalizing s with
  | nil => exact h.refl s
  | cons i is ih => exact h.trans _ _ _ (h.grows_step s i) (ih (step s i))

/-- Nothing is seen of a run exactly when all its steps would be quiet at the start. -/
theorem LeavesTraces.view_foldl_iff (is : List ι)
    (s : σ) : view (is.foldl step s)=view s ↔ ∀i∈is,quiet s i := by
  induction is generalizing s with
  | nil => simp
  | cons i is ih =>
    rw [List.foldl_cons,List.forall_mem_cons]
    constructor
    · intro hs
      have hq := h.quiet_of_view s i _ (h.grows_foldl is (step s i)) hs
      refine ⟨hq,fun j hj => ?_⟩
      rw [← h.quiet_step s i j hq]
      exact (ih (step s i)).mp (hs.trans (h.view_step s i hq).symm) j hj
    · rintro ⟨hq,hr⟩
      rw [← h.view_step s i hq,ih (step s i)]
      intro j hj
      rw [h.quiet_step s i j hq]
      exact hr j hj

end OxideSfu.StepRuns
