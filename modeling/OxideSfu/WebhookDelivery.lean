import OxideSfu.StepRuns

/-!
# Webhook delivery

Every webhook URL has a queue and a worker (`oxidesfu-server/src/webhook.rs`). `emit` spawns a task
for each URL, which puts the event into the queue when there is room; the worker sends each event
until it is answered or given up. An event is known by its place among the emitted ones.
-/

namespace OxideSfu.Webhooks

open StepRuns List Option Function

structure WebhookRetryPolicy where
  maxAttempts : ℕ

def WebhookRetryPolicy.default : WebhookRetryPolicy := ⟨5⟩

inductive SendOutcome
  | status (code : ℕ)
  | transport
  /-- The request could not be built and nothing is sent. -/
  | unbuilt deriving DecidableEq

structure Attempt where
  number : ℕ
  outcome : SendOutcome
  deriving DecidableEq

/-- The loop of `dispatch_webhook_event_with_retry`: the attempt after this one, if any. -/
def nextAttempt (retry : WebhookRetryPolicy) (attempt : ℕ) : SendOutcome→Option ℕ
  | .status code =>
    if 200≤code ∧ code≤299 then none
    else if 500≤code then
      if attempt < max retry.maxAttempts 1 then some (attempt+1) else none
    else none
  | .transport => if attempt < max retry.maxAttempts 1 then some (attempt+1) else none
  | .unbuilt => none

/-- The spawned tasks that have not sent, the queue, the attempt at which the worker is, the
events it has received, and the requests that were sent. -/
structure WebhookUrlDispatcher where
  tasks : List ℕ := []
  queue : List ℕ := []
  job : Option (ℕ × ℕ) := none
  received : List ℕ := []
  attempts : List Attempt := []

inductive TaskStep
  | send (number : ℕ)
  | recv
  | attempt (outcome : SendOutcome)

namespace WebhookUrlDispatcher

variable (retry : WebhookRetryPolicy) (queueCapacity : ℕ) (d : WebhookUrlDispatcher)

def spawnTask (number : ℕ) : WebhookUrlDispatcher :=
  {d with tasks := d.tasks++[number]}

def step : TaskStep → WebhookUrlDispatcher
  | .send number =>
    if number∈d.tasks ∧ d.queue.length<queueCapacity then
      {d with tasks := d.tasks.erase number,queue := d.queue++[number]}
    else d
  | .recv =>
    match d.job,d.queue with
    | none, number::rest =>
      {d with queue := rest,job := some (number,1),received := d.received++[number]}
    | _, _ => d
  | .attempt outcome =>
    match d.job with
    | none => d
    | some (number,attempt) =>
      {d with
        job := (nextAttempt retry attempt outcome).map (fun next => (number,next))
        attempts :=
          d.attempts++if outcome = .unbuilt then [] else [⟨number,outcome⟩]}

def line : List ℕ := d.received++(d.queue++d.tasks)

end WebhookUrlDispatcher

structure WebhookDispatcher (urls : ℕ) where
  emitted : ℕ
  urlDispatchers : Fin urls → WebhookUrlDispatcher

inductive DispatcherEvent (urls : ℕ)
  | emit
  | run (url : Fin urls) (step : TaskStep)

namespace WebhookDispatcher

variable {urls : ℕ}

/-- The dispatcher of the server configuration: the default policy and queues of 256 events. -/
def step (d : WebhookDispatcher urls) : DispatcherEvent urls → WebhookDispatcher urls
  | .emit => ⟨d.emitted+1,fun url => (d.urlDispatchers url).spawnTask d.emitted⟩
  | .run url step =>
    {d with
      urlDispatchers := update d.urlDispatchers url
        ((d.urlDispatchers url).step .default 256 step)}

def after (events : List (DispatcherEvent urls)) : WebhookDispatcher urls :=
  events.foldl step ⟨0,fun _ => {}⟩

end WebhookDispatcher

def SendOutcome.retried : SendOutcome→Prop
  | .status code => 500≤code | .transport => True | .unbuilt => False

/-- Attempts of one event, of which only the last can be answered below 500. -/
structure Block (limit number : ℕ) (block : List Attempt) : Prop where
  number : ∀a∈block,a.number=number
  length : block.length≤limit
  retried : ∀a∈block.dropLast,a.outcome.retried

def Whole (limit : ℕ) (log : List Attempt) (number : ℕ) : Prop :=
  ∃pre block post,log=pre++block++post ∧ Block limit number block ∧
    ∀a∈pre++post,a.number≠number

/-- Whoever is attempted before the first attempt of an event was emitted before it. -/
def FirstInOrder (log : List Attempt) : Prop :=
  ∀pre a post,log=pre++a::post → (∀b∈pre,b.number≠a.number) →
    ∀b∈pre,b.number<a.number

inductive Blocks (limit : ℕ) : List ℕ → List Attempt→Prop
  | nil : Blocks limit [] []
  | concat {received : List ℕ} {log : List Attempt} {number : ℕ} {block : List Attempt} :
    Blocks limit received log → Block limit number block →
      Blocks limit (received++[number]) (log++block)

section

variable {l : ℕ} {received : List ℕ} {log : List Attempt} (h : Blocks l received log)

include h

theorem Blocks.mem : ∀a∈log,a.number∈received := by
  induction h with
  | nil => exact fun _ ha => nomatch ha
  | concat _ hb ih =>
    intro a ha
    rcases mem_append.mp ha with ha | ha
    · exact mem_append_left _ (ih a ha)
    · simp [hb.number a ha]

theorem Blocks.whole (hn : received.Nodup) (n : ℕ) : Whole l log n := by
  induction h with
  | nil => exact ⟨[],[],[],rfl,⟨by simp,by simp,by simp⟩,by simp⟩
  | @concat received log last block hl hb ih =>
    obtain ⟨hn,-,hne⟩ := nodup_append.mp hn
    by_cases heq : n=last
    · subst heq
      refine ⟨log,block,[],by simp,hb,fun a ha => hne _ (hl.mem a ?_) _ (by simp)⟩
      simpa using ha
    · obtain ⟨pre,piece,post,rfl,hp,ho⟩ := ih hn
      refine ⟨pre,piece,post++block,by simp,hp,fun a ha => ?_⟩
      rw [← append_assoc] at ha
      rcases mem_append.mp ha with ha | ha
      · exact ho a ha
      · rw [hb.number a ha]
        exact Ne.symm heq

theorem Blocks.sorted (hs : received.Pairwise (· < ·)) :
    log.Pairwise (fun a b => a.number≤b.number) := by
  induction h with
  | nil => exact .nil
  | concat hl hb ih =>
    obtain ⟨hr,-,hlt⟩ := pairwise_append.mp hs
    refine pairwise_append.mpr ⟨ih hr,?_,fun a ha b hmem => ?_⟩
    · exact pairwise_of_forall_mem_list fun a ha b hmem =>
        ((hb.number a ha).trans (hb.number b hmem).symm).le
    · rw [hb.number b hmem]
      exact (hlt _ (hl.mem a ha) _ (by simp)).le

end

variable {l number capacity : ℕ} {retry : WebhookRetryPolicy}
  {d : WebhookUrlDispatcher}

theorem nextAttempt_eq_some {a next : ℕ} {outcome : SendOutcome}
    (h : nextAttempt retry a outcome=some next) :
    outcome.retried ∧ a < max retry.maxAttempts 1 ∧ next=a+1 := by
  cases outcome with
  | status code =>
    rw [nextAttempt] at h
    split_ifs at h with h₁ h₂ h₃
    exact ⟨h₂,h₃,(some.inj h).symm⟩
  | transport =>
    rw [nextAttempt] at h
    split_ifs at h with h₁
    exact ⟨trivial,h₁,(some.inj h).symm⟩
  | unbuilt => cases h

/-- The worker is done with every block but the last one, in which all attempts were in vain. -/
def Dispatching (limit : ℕ) (d : WebhookUrlDispatcher) : Prop :=
  match d.job with
  | none => Blocks limit d.received d.attempts
  | some (number,attempt) => ∃received log block,d.received=received++[number] ∧
    d.attempts=log++block ∧ Blocks limit received log ∧
      (∀a∈block,a.number=number ∧ a.outcome.retried) ∧ block.length+1=attempt ∧
      attempt≤limit

theorem Dispatching.blocks (h : Dispatching l d) : Blocks l d.received d.attempts := by
  rw [Dispatching] at h
  split at h
  · exact h
  · obtain ⟨received,log,block,hr,hl,hb,ha,hk,hm⟩ := h
    rw [hr,hl]
    exact hb.concat ⟨fun a hmem => (ha a hmem).1,by omega,
      fun a hmem => (ha a (dropLast_subset _ hmem)).2⟩

theorem Dispatching.step (h : Dispatching (max retry.maxAttempts 1) d) (step : TaskStep) :
    Dispatching (max retry.maxAttempts 1) (d.step retry capacity step) := by
  cases step with
  | send n =>
    rw [WebhookUrlDispatcher.step]
    split_ifs <;> exact h
  | recv =>
    rw [WebhookUrlDispatcher.step]
    split
    next n rest hj hq =>
      exact ⟨d.received,d.attempts,[],rfl,by simp,h.blocks,by simp,rfl,le_max_right _ _⟩
    · exact h
  | attempt outcome =>
    rw [WebhookUrlDispatcher.step]
    cases hj : d.job with
    | none => exact h
    | some job =>
      obtain ⟨n,attempt⟩ := job
      rw [Dispatching,hj] at h
      obtain ⟨received,log,block,hr,hl,hb,ha,hk,hm⟩ := h
      cases hn : nextAttempt retry attempt outcome with
      | none =>
        simp only [Dispatching,hn,map_none,hr,hl,append_assoc]
        refine hb.concat ⟨fun a hmem => ?_,?_,fun a hmem => ?_⟩
        · rcases mem_append.mp hmem with hmem | hmem
          · exact (ha a hmem).1
          · split_ifs at hmem
            · cases hmem
            · rw [mem_singleton.mp hmem]
        · refine le_trans ?_ hm
          split_ifs <;> simp [← hk]
        · split_ifs at hmem
          · exact (ha a (dropLast_subset _ (by simpa using hmem))).2
          · exact (ha a (by simpa using hmem)).2
      | some next =>
        obtain ⟨hre,hlt,rfl⟩ := nextAttempt_eq_some hn
        have ho : outcome ≠ .unbuilt := by
          rintro rfl
          cases hn
        simp only [Dispatching,hn,ho,map_some,if_false,hr,hl,append_assoc]
        refine ⟨received,log,block++[⟨n,outcome⟩],rfl,rfl,hb,fun a hmem => ?_,by simp [hk],hlt⟩
        rcases mem_append.mp hmem with hmem | hmem
        · exact ha a hmem
        · rw [mem_singleton.mp hmem]
          exact ⟨rfl,hre⟩

theorem line_spawnTask : (d.spawnTask number).line=d.line++[number] := by
  simp [WebhookUrlDispatcher.line,WebhookUrlDispatcher.spawnTask]

/-- A task sends only when no older task is waiting. -/
def InTurn (d : WebhookUrlDispatcher) : TaskStep→Prop
  | .send number => ∀task∈d.tasks,number≤task | _ => True

theorem line_step {step : TaskStep} (hs : d.line.Pairwise (· < ·)) (ht : InTurn d step) :
    (d.step retry capacity step).line=d.line := by
  cases step with
  | send n =>
    rw [WebhookUrlDispatcher.step]
    split_ifs with hsend
    · obtain ⟨task,rest,htasks⟩ := exists_cons_of_ne_nil (ne_nil_of_mem hsend.1)
      have hsorted := (pairwise_append.mp (pairwise_append.mp hs).2.1).2.1
      have heq : n=task := by
        rw [htasks] at hsend hsorted
        rcases mem_cons.mp hsend.1 with heq | hmem
        · exact heq
        · exact absurd ((pairwise_cons.mp hsorted).1 n hmem) (ht task (by simp [htasks])).not_gt
      simp [WebhookUrlDispatcher.line,htasks,heq]
    · rfl
  | recv =>
    rw [WebhookUrlDispatcher.step]
    split
    next n rest hj hq => simp [WebhookUrlDispatcher.line,hq]
    · rfl
  | attempt outcome =>
    rw [WebhookUrlDispatcher.step]
    split <;> rfl

open WebhookDispatcher

variable {urls : ℕ}

theorem after_concat (es : List (DispatcherEvent urls)) (e : DispatcherEvent urls) :
    after (es++[e])=(after es).step e := foldl_append

theorem dispatching_after {es : List (DispatcherEvent urls)} {url : Fin urls}
    (ht : AtEveryStep (fun pre e => ∀step,e = .run url step →
      InTurn ((after pre).urlDispatchers url) step) es) :
    Dispatching (max WebhookRetryPolicy.default.maxAttempts 1) ((after es).urlDispatchers url) ∧
      ((after es).urlDispatchers url).line=range (after es).emitted := by
  induction es using reverseRecOn with
  | nil => exact ⟨.nil,rfl⟩
  | append_singleton es e ih =>
    obtain ⟨hpre,hstep⟩ := (atEveryStep_concat _ es e).mp ht
    obtain ⟨hd,hl⟩ := ih hpre
    rw [after_concat]
    cases e with
    | emit =>
      refine ⟨hd,?_⟩
      rw [WebhookDispatcher.step,line_spawnTask,range_succ,hl]
    | run o step =>
      by_cases ho : url=o
      · subst ho
        simp only [WebhookDispatcher.step,update_self]
        exact ⟨hd.step step,(line_step (hl ▸ pairwise_lt_range) (hstep step rfl)).trans hl⟩
      · simpa only [WebhookDispatcher.step,update_of_ne ho] using ⟨hd,hl⟩

/-- If the tasks of a URL send in the order in which they were spawned, the first attempts at the
URL are in the order of emission. Every event is attempted in one piece, as often as configured
at most and not again after an answer below 500. -/
theorem attempts_in_emission_order (urls : ℕ) (events : List (DispatcherEvent urls))
    (url : Fin urls)
    (hturn : AtEveryStep (fun pre event => ∀step,event = .run url step →
      InTurn ((after pre).urlDispatchers url) step) events) :
    FirstInOrder ((after events).urlDispatchers url).attempts ∧
      ∀number,Whole WebhookRetryPolicy.default.maxAttempts
        ((after events).urlDispatchers url).attempts number := by
  obtain ⟨hd,hline⟩ := dispatching_after hturn
  have hr : ((after events).urlDispatchers url).line.Pairwise (· < ·) := hline ▸ pairwise_lt_range
  have hlt := (pairwise_append.mp hr).1
  refine ⟨fun pre a post hl hf b hb => ?_,hd.blocks.whole (hlt.imp fun h => h.ne)⟩
  have hs := hd.blocks.sorted hlt
  rw [hl,pairwise_append] at hs
  exact lt_of_le_of_ne (hs.2.2 b hb a (by simp)) (hf b hb)

instance (d : WebhookUrlDispatcher) (step : TaskStep) : Decidable (InTurn d step) :=
  match step with
  | .send number => inferInstanceAs (Decidable (∀task∈d.tasks,number≤task))
  | .recv | .attempt _ => isTrue trivial

instance (d : WebhookUrlDispatcher) (url : Fin urls) (event : DispatcherEvent urls) :
    Decidable (∀step,event = .run url step → InTurn d step) :=
  match event with
  | .emit => isTrue nofun
  | .run _ step => decidable_of_iff (_ = url → InTurn d step)
    ⟨fun h _ heq => by cases heq; exact h rfl,fun h hurl => h step (hurl ▸ rfl)⟩

/-- The first event is answered at its third attempt, the second one is refused at once. -/
theorem attempts_in_emission_order_retried :
    let events : List (DispatcherEvent 1) := [.emit,.emit] ++
      ([.send 0,.recv,.send 1,.attempt (.status 503),.attempt .transport,.attempt (.status 200),
        .recv,.attempt (.status 404),.attempt (.status 200)].map (.run 0))
    let attempts := ((after events).urlDispatchers 0).attempts
    attempts = [⟨0,.status 503⟩,⟨0,.transport⟩,⟨0,.status 200⟩,⟨1,.status 404⟩] ∧
      FirstInOrder attempts ∧
      ∀number,Whole WebhookRetryPolicy.default.maxAttempts attempts number :=
  ⟨by decide,attempts_in_emission_order 1 _ 0 (by decide)⟩

/-- The task of the second event sends before the task of the first one. -/
theorem younger_task_overtakes :
    let events : List (DispatcherEvent 1) := [.emit,.emit] ++
      ([.send 1,.send 0,.recv,.attempt (.status 200),.recv,.attempt (.status 200)].map
        (.run 0))
    ((after events).urlDispatchers 0).attempts=[⟨1,.status 200⟩,⟨0,.status 200⟩] ∧
      ¬FirstInOrder ((after events).urlDispatchers 0).attempts := by
  have hl : ((after ([.emit,.emit]++([.send 1,.send 0,.recv,.attempt (.status 200),.recv,
      .attempt (.status 200)].map (.run 0)) : List
        (DispatcherEvent 1))).urlDispatchers 0).attempts =
      [⟨1,.status 200⟩,⟨0,.status 200⟩] := by decide
  refine ⟨hl,fun h => ?_⟩
  have hlt := h [⟨1,.status 200⟩] ⟨0,.status 200⟩ [] hl (by simp) ⟨1,.status 200⟩ (by simp)
  exact absurd hlt (by decide)

end OxideSfu.Webhooks
