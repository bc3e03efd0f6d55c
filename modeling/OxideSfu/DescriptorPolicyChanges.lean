import OxideSfu.DescriptorStreams

/-!
# Policy changes on a scalable stream

Every call on a forwarding target brings its own policies. The selector that answers has
seen the frames since the policy in force was installed, so a frame whose references and
chain lie within them is forwarded, whatever policies were in force before.
-/

namespace OxideSfu.VideoIngress

open StepRuns DependencyDescriptorForwardingSelector

def targetDecision (calls : List (PolicyInForce × DependencyDescriptorFrame))
    (call : PolicyInForce × DependencyDescriptorFrame) : DependencyDescriptorForwardingDecision :=
  (selectDependencyDescriptorFrame (exec selectDependencyDescriptorFrame none calls) call).1

def decidesFrame (slot : DescriptorSelectorSlot)
    (call : PolicyInForce × DependencyDescriptorFrame) : Bool :=
  ((currentSelector slot call.1.descriptorPolicy).cachedDecision call.2.frameNumber).isNone

def decidedOnTarget (calls : List (PolicyInForce × DependencyDescriptorFrame)) :
    List DecidedFrame :=
  ((trace selectDependencyDescriptorFrame none calls).filter
    (fun t => decidesFrame t.before t.input)).map (fun t => ⟨t.input.2,t.output⟩)

/-- The target selected under the policy is present in the frame, and the frame's diffs and
the diff of the chain that protects the target name recently forwarded frames. -/
def HasDependencies (policy : DependencyDescriptorLayerPolicy) (log : List DecidedFrame)
    (frame : DependencyDescriptorFrame) : Prop :=
  ∃layer∈selectTarget policy frame,
    (∃dti∈frame.dtis[layer.target.toNat]?,dti ≠ .notPresent) ∧
    (∀diff∈frame.frameDiffs,diff≠0 →
      ForwardedRecently log (frame.frameNumber-diff.toNat)) ∧
    ∀chain∈frame.targetProtectedByChain[layer.target.toNat]?,
      ∀diff∈frame.chainDiffs[chain.toNat]?,diff≠0 →
        ForwardedRecently log (frame.frameNumber-diff.toNat)

instance (log : List DecidedFrame) (frameNumber : ℤ) :
    Decidable (ForwardedRecently log frameNumber) :=
  inferInstanceAs (Decidable (∃frame∈forwardedFrames (log.rtake decisionCacheCapacity),
    (frame.frameNumber : ℤ)=frameNumber))

instance (policy : DependencyDescriptorLayerPolicy) (log : List DecidedFrame)
    (frame : DependencyDescriptorFrame) : Decidable (HasDependencies policy log frame) :=
  -- the lists are walked through, not the finite types of their elements
  have : Decidable (∀diff∈frame.frameDiffs,diff≠0 →
      ForwardedRecently log (frame.frameNumber-diff.toNat)) := List.decidableBAll _ _
  have (diffs : Option UInt16) : Decidable (∀diff∈diffs,diff≠0 →
      ForwardedRecently log (frame.frameNumber-diff.toNat)) := diffs.decidableForallMem
  have (chains : Option UInt8) : Decidable (∀chain∈chains,
      ∀diff∈frame.chainDiffs[chain.toNat]?,diff≠0 →
        ForwardedRecently log (frame.frameNumber-diff.toNat)) := chains.decidableForallMem
  inferInstanceAs (Decidable (∃layer∈selectTarget policy frame,_ ∧ _ ∧ _))

/-- A frame that has its dependencies among all frames the target decided is forwarded. -/
def NotInterrupted (calls : List (PolicyInForce × DependencyDescriptorFrame))
    (call : PolicyInForce × DependencyDescriptorFrame) : Prop :=
  HasDependencies call.1.descriptorPolicy (decidedOnTarget calls) call.2 →
    (targetDecision calls call).isForward

theorem targetDecision_eq_answer (calls : List (PolicyInForce × DependencyDescriptorFrame))
    (y : PolicyInForce) (f : DependencyDescriptorFrame) :
    targetDecision calls (y,f)=answer y.descriptorPolicy
      (framesUnderPolicy y.descriptorPolicy calls) f := by
  rw [targetDecision,selectDependencyDescriptorFrame_fst,currentSelector_exec,answer]

def decidedUnderPolicy (policy : DependencyDescriptorLayerPolicy)
    (calls : List (PolicyInForce × DependencyDescriptorFrame)) : List DecidedFrame :=
  decidedFrames policy (framesUnderPolicy policy calls)

/-- In every run, whatever policies were in force before, a frame that is decided now is
forwarded when it is forwardable after the frames decided under its policy. -/
theorem targetDecision_of_forwardable (calls : List (PolicyInForce × DependencyDescriptorFrame))
    (policy : PolicyInForce) (frame : DependencyDescriptorFrame) (target : UInt8)
    (hnew : ¬ DecidedRecently (decidedUnderPolicy policy.descriptorPolicy calls) frame.frameNumber)
    (hforwardable : Forwardable policy.descriptorPolicy
      (decidedUnderPolicy policy.descriptorPolicy calls) frame target) :
    targetDecision calls (policy,frame) = .forward target := by
  rw [targetDecision_eq_answer]
  exact (answer_eq_forward_iff hnew target).mpr hforwardable

def chainedFrame (frameNumber : ℕ) (frameDiffs chainDiffs : List UInt16)
    (dti : DependencyDescriptorDti) : DependencyDescriptorFrame :=
  ⟨frameNumber,1,[⟨0,.low,0⟩],[dti],frameDiffs,chainDiffs,[0]⟩

def highestLayer : PolicyInForce := ⟨.fixed .high,none⟩

/-- After a change of policy a key frame starts the stream anew and the next frame follows it. -/
theorem targetDecision_of_forwardable_after_change :
    targetDecision [(highestLayer,chainedFrame 0 [] [0] .switch),
      (lowestLayer,chainedFrame 1 [] [0] .switch)] (lowestLayer,chainedFrame 2 [1] [1] .required) =
        .forward 0 := by
  have hlog : decidedUnderPolicy lowestLayer.descriptorPolicy
      [(highestLayer,chainedFrame 0 [] [0] .switch),
        (lowestLayer,chainedFrame 1 [] [0] .switch)] =
          [⟨chainedFrame 1 [] [0] .switch,.forward 0⟩] := by decide +kernel
  have hf : ForwardedRecently [⟨chainedFrame 1 [] [0] .switch,.forward 0⟩]
      ((chainedFrame 2 [1] [1] .required).frameNumber-(1 : UInt16).toNat) := by decide +kernel
  have hb : ChainIntact 0 [] (chainedFrame 1 [] [0] .switch) :=
    ChainIntact.restart (by decide +kernel) rfl
  apply targetDecision_of_forwardable
  · rw [DecidedRecently]
    decide +kernel
  · refine ⟨by decide +kernel,⟨⟨0,.low,0⟩,by decide +kernel,rfl⟩,⟨.required,rfl,by decide⟩,?_,?_⟩
    · intro diff hd _
      obtain rfl := List.mem_singleton.mp hd
      exact hf
    · intro _
      have ha : (chainedFrame 2 [1] [1] .required).chainActive 0 := by decide +kernel
      exact ⟨0,rfl,@ChainIntact.next 0 []
        ⟨chainedFrame 1 [] [0] .switch,.forward 0⟩ _ _ hb ha rfl hf⟩

/-- Four calls that are not forwarded although the target has all that the frame names: the
policy has changed since; the chain was broken in between and has not been restarted; the
number was decided before for a frame without the target; another target names no chain. -/
theorem notInterrupted_fails :
    ¬ NotInterrupted [(highestLayer,chainedFrame 0 [] [0] .switch)]
        (lowestLayer,chainedFrame 1 [1] [1] .required) ∧
      ¬ NotInterrupted [(lowestLayer,chainedFrame 0 [] [0] .switch),
          (lowestLayer,chainedFrame 1 [] [2] .notPresent)]
        (lowestLayer,chainedFrame 2 [2] [2] .required) ∧
      ¬ NotInterrupted [(lowestLayer,chainedFrame 0 [] [0] .notPresent)]
        (lowestLayer,chainedFrame 0 [] [0] .switch) ∧
      ¬ NotInterrupted [] (lowestLayer,{chainedFrame 0 [] [0] .switch with
          targetLayers := [⟨0,.low,0⟩,⟨1,.high,0⟩]}) := by
  unfold NotInterrupted
  decide +kernel

end OxideSfu.VideoIngress
