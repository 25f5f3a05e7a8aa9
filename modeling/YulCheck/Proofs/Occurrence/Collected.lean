import YulCheck.Proofs.Host.Asked
import YulCheck.Proofs.Occurrence.Mentions
import YulCheck.Proofs.Occurrence.Parts

/-! # The collected names are all names of a check

Collecting the names of a block, entering its declarations and checking its statements are three ways
through the same tree. Every name that is bound, looked up, activated or shown to the host in a check is
among the collected ones.
-/

namespace YulCheck

variable {σ : Type}

namespace Setting

open Walk

variable {setting : Setting} {place : Place} {known : Handle → Prop}

/-- Whether all requests of a walk are about known names. -/
abbrev IsNamed {α : Type} (known : Handle → Prop) (walk : Walk α) : Prop :=
  walk.Only fun request => ∀ name ∈ request.names, known name

theorem named_checks :
    AllowsChecks place fun request => ∀ name ∈ request.names, known name where
  report _ _ := List.forall_mem_nil _
  warnOnce _ := List.forall_mem_nil _
  errorCount := List.forall_mem_nil _
  noteTypes _ _ := List.forall_mem_nil _

/-- The requests of a check are about the names that occur in the program. -/
theorem checkRules_named (setting : Setting) (known : Handle → Prop) :
    setting.CheckRules known (fun _ => True) fun _ walk => IsNamed known walk where
  pure := only_pure
  broken _ := trivial
  bind := only_bind
  counted rest := only_bind (only_ask.mpr (List.forall_mem_nil _)) fun errors => rest errors trivial
  asked _ areKnown := only_ask.mpr areKnown
  declared _ _ isKnown :=
    only_bind (only_ask.mpr (List.forall_mem_singleton.mpr isKnown)) fun _ => only_pure _
  identifier _ _ isKnown :=
    have isNamed := List.forall_mem_singleton.mpr isKnown
    named_checks.checkIdentifier isNamed fun _ => isNamed
  callee _ _ _ _ isKnown :=
    have isNamed := List.forall_mem_singleton.mpr isKnown
    named_checks.resolveCallee (fun _ _ => List.forall_mem_nil _) isNamed (fun _ => isNamed) _
  target _ _ isKnown :=
    have isNamed := List.forall_mem_singleton.mpr isKnown
    named_checks.targetType isNamed fun _ => isNamed

end Setting

/-! ### Checks -/

/-- All requests of a check are about collected names, however they are answered. -/
theorem Setting.named_checkProgram (setting : Setting) (place : Place) (block : Block) :
    IsNamed (· ∈ block.names) (setting.checkProgram place block) :=
  (setting.checkRules_named _).checkProgram fun _ => AscendingList.mem_ofList.mpr

namespace Checker

variable {checker : Checker} {reporter : Reporter} {facts : Facts} {hostState : σ} {block : Block}

theorem addsOnly_of_runOver {host? : Option (Host σ)} {outcome : Except Failure Unit}
    {state : RunState σ}
    (ran : checker.runOver host? reporter facts hostState block = .ok (outcome, state)) :
    (checker.start reporter facts hostState).AddsOnly {name | name ∈ block.names} state :=
  Walk.run_relates (RunState.AddsOnly {name | name ∈ block.names}) RunState.AddsOnly.refl
    (fun _ _ _ => .trans) (fun _ _ _ _ => Run.addsOnly_of_answer)
    (checker.setting.named_checkProgram (checker.place block) block) ran

theorem name_mem_of_asked {host : Host σ} :
    ∀ query ∈ checker.asked host reporter facts hostState block,
      query.identifier.name ∈ block.names :=
  Walk.forall_asked ((checker.setting.named_checkProgram (checker.place block) block).imp
    fun request isNamed _ _ isQuestion => isNamed _ (request.name_mem_of_question isQuestion))

/-- The collected names of a block are those that occur in it: as a declared variable, a function, a
parameter, a return variable, a target, an identifier or a callee, at any depth. Every name that is
bound while the declarations of the block are entered is among them, and so is every name that is bound,
looked up, activated or shown to the host while it is checked. So scopes bind no other names than
before, no other variables become usable, and a host is asked about no other names. -/
theorem names_are_collected (checker : Checker) (block : Block) :
    (∀ name, name ∈ block.names ↔ block.Mentions name) ∧
      (∀ place, Setting.IsNamed (· ∈ block.names) (checker.setting.enterDeclarations place block) ∧
        Setting.IsNamed (· ∈ block.names) (checker.setting.checkProgram place block)) ∧
      ∀ (σ : Type) (reporter : Reporter) (facts : Facts) (hostState : σ),
        (∀ host? outcome state,
          checker.runOver host? reporter facts hostState block = .ok (outcome, state) →
            (checker.start reporter facts hostState).AddsOnly {name | name ∈ block.names} state) ∧
          ∀ host, ∀ query ∈ checker.asked host reporter facts hostState block,
            query.identifier.name ∈ block.names := by
  refine ⟨fun name => block.mem_names_iff, fun place => ⟨?_, ?_⟩, fun σ reporter facts hostState => ?_⟩
  · exact (checker.setting.checkRules_named _).enterDeclarations fun _ => AscendingList.mem_ofList.mpr
  · exact checker.setting.named_checkProgram place block
  · exact ⟨fun host? outcome state => addsOnly_of_runOver, fun host => name_mem_of_asked⟩

end Checker

end YulCheck
