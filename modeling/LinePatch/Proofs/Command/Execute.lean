import LinePatch.Command.Execute
import LinePatch.Proofs.Run

/-!
# How a request to apply a patch ends

A request to apply a patch first comes to the changes that the patch asks for. Only then, and only
if it is not a dry run, it turns to the tree, and all that it does there is one commit, by whichever
method.

## Main definitions

* `Request.Ends`: the ways in which a request to apply a patch ends.

## Main results

* `requested_result_eq_ok_iff`: the stages that a request has passed when it knows its changes.
* `Request.ends_execute`: how a request ends.
* `Request.Ends.eq_of_forall_ne`, `Request.Ends.eq_or_eq_commit`: what becomes of the tree.
-/

namespace LinePatch

/-- The ways in which a request to apply a patch ends: with this report and this tree, if it comes
to these changes. -/
inductive Request.Ends (method : Commit.Method) (root : String) (dryRun json : Bool) (tree : Tree)
    (result : Except Refusal Changes) (report : Report) (after : Tree) : Prop where
  /-- It does not come to any changes. -/
  | refused {refusal : Refusal} (hresult : result = .error refusal) (hcode : report.exitCode = 1)
      (houtput : report.standardOutput = "") (hafter : after = tree)
  /-- It only says what the changes are. -/
  | shown {changes : Changes} (hdry : dryRun = true) (hresult : result = .ok changes)
      (hcode : report.exitCode = 0) (houtput : report.standardOutput = changes.show true json)
      (hafter : after = tree)
  /-- It brings the changes into the tree. -/
  | committed {changes : Changes} (hdry : dryRun = false) (hresult : result = .ok changes)
      (hrefusal : (method.commit root changes tree).refusal? = none) (hcode : report.exitCode = 0)
      (houtput : report.standardOutput = changes.show false json)
      (hafter : after = (method.commit root changes tree).tree)
  /-- The commit does not come to its end. -/
  | broken {changes : Changes} {refusal : Refusal} (hdry : dryRun = false)
      (hresult : result = .ok changes)
      (hrefusal : (method.commit root changes tree).refusal? = some refusal)
      (hcode : report.exitCode = 1) (houtput : report.standardOutput = "")
      (hafter : after = (method.commit root changes tree).tree)

/-- A request that does not come to any changes is refused, and leaves the tree as it is. -/
theorem Request.Ends.eq_of_forall_ne {method : Commit.Method} {root : String} {dryRun json : Bool}
    {tree after : Tree} {result : Except Refusal Changes} {report : Report}
    (h : Request.Ends method root dryRun json tree result report after)
    (hresult : ∀ changes, result ≠ .ok changes) : report.exitCode = 1 ∧ after = tree := by
  cases h with
  | refused _ hcode _ hafter => exact ⟨hcode, hafter⟩
  | shown _ hok => exact absurd hok (hresult _)
  | committed _ hok => exact absurd hok (hresult _)
  | broken _ hok => exact absurd hok (hresult _)

/-- A request leaves the tree as it is, or as its commit leaves it. -/
theorem Request.Ends.eq_or_eq_commit {method : Commit.Method} {root : String} {dryRun json : Bool}
    {tree after : Tree} {result : Except Refusal Changes} {report : Report}
    (h : Request.Ends method root dryRun json tree result report after) :
    after = tree ∨
      ∃ changes, result = .ok changes ∧ after = (method.commit root changes tree).tree := by
  cases h with
  | refused _ _ _ hafter => exact .inl hafter
  | shown _ _ _ _ hafter => exact .inl hafter
  | committed _ hok _ _ _ hafter => exact .inr ⟨_, hok, hafter⟩
  | broken _ hok _ _ _ hafter => exact .inr ⟨_, hok, hafter⟩

section

variable (method : Commit.Method) (input : Input) (choices : Choices) (root : String)
  (extract : Bool) (standardInput : ByteArray) (tree : Tree)

/-- **How a request to apply a patch ends.** -/
theorem Request.ends_execute (dryRun json eventJson : Bool) (verbosity : Nat) :
    Request.Ends method root dryRun json tree
      (requested input choices root extract standardInput tree).result
      ((Request.apply input choices root extract dryRun json eventJson).execute method verbosity
        standardInput tree).1
      ((Request.apply input choices root extract dryRun json eventJson).execute method verbosity
        standardInput tree).2 := by
  simp only [Request.execute]
  cases hresult : (requested input choices root extract standardInput tree).result with
  | error refusal => exact .refused rfl rfl rfl rfl
  | ok changes =>
    cases dryRun with
    | true => exact .shown rfl rfl rfl rfl rfl
    | false =>
      simp only [Bool.false_eq_true, if_false]
      cases hrefusal : (method.commit root changes tree).refusal? with
      | none => exact .committed rfl rfl hrefusal rfl rfl rfl
      | some refusal => exact .broken rfl rfl hrefusal rfl rfl rfl

variable {input choices root extract standardInput tree}

/-- A request that knows its changes has read the patch, then the files that it names, and has then
applied its actions to them. -/
theorem requested_result_eq_ok_iff {changes : Changes} :
    (requested input choices root extract standardInput tree).result = .ok changes ↔
      ∃ settings actions files,
        (requestedActions input choices extract standardInput tree).result =
          .ok (settings, actions) ∧
        loadFiles tree root actions = .ok files ∧
        (applyActions settings.mode files.get? actions).result = .ok changes := by
  simp only [requested, requestedChanges, Run.result_bind_eq_ok_iff,
    Run.result_mapError_eq_ok_iff, Prod.exists]
  constructor
  · rintro ⟨settings, actions, hread, files, hfiles, hchanges⟩
    exact ⟨settings, actions, files, hread, hfiles, hchanges⟩
  · rintro ⟨settings, actions, files, hread, hfiles, hchanges⟩
    exact ⟨settings, actions, hread, files, hfiles, hchanges⟩

end

end LinePatch
