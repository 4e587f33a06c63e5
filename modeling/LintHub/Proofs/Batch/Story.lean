import LintHub.Proofs.Batch.Turn
import LintHub.Proofs.Work.Account

/-! # What calls tell

The calls that run tools and cancel them, with trails that tell which step asks all batches to stop,
which one takes that back, where a batch looks whether to stop, and which steps belong to the turn of
a tool. Erasing a story gives the work itself.
-/

namespace LintHub.Hub

/-- What a step is. -/
inductive What where
  | cancels
  | clears
  | looks (name : String) (stopped : Bool)
  | turn (name : String)
  | other
  deriving DecidableEq

structure Told where
  what : What
  /-- Whether the batches are asked to stop after the step. -/
  flag : Bool
  deriving DecidableEq

/-- Work whose steps tell what they are. -/
abbrev Story (α : Type) := ExceptT Fault (Trail Hub Told) α

section
variable {α β : Type}

namespace Story

/-- Work all of whose steps are of one sort. -/
def of (what : Hub → What) (w : Work Hub α) : Story α :=
  ExceptT.mk (Trail.mark (fun h h' => ⟨what h, h'.cancelled⟩) w.run)

def ofExcept (e : Except Fault α) : Story α :=
  ExceptT.mk (.done e)

def attempt (w : Story α) : Story (Except Fault α) :=
  ExceptT.mk (Trail.bind w.run fun r => .done (.ok r))

def erase (w : Story α) : Work Hub α :=
  ExceptT.mk (Trail.erase w.run)

@[simp] theorem erase_pure (a : α) : erase (pure a : Story α) = pure a := rfl

@[simp] theorem erase_throw (f : Fault) : erase (throw f : Story α) = throw f := rfl

@[simp] theorem erase_ofExcept (e : Except Fault α) : erase (ofExcept e) = Work.ofExcept e := rfl

@[simp] theorem erase_of (what : Hub → What) (w : Work Hub α) : erase (of what w) = w :=
  Account.erase_of _ w

@[simp] theorem erase_bind (w : Story α) (k : α → Story β) :
    erase (w >>= k) = erase w >>= fun a => erase (k a) :=
  Account.erase_bind w k

@[simp] theorem erase_discard (w : Story α) : erase (discard w) = discard (erase w) :=
  Account.erase_discard w

@[simp] theorem erase_attempt (w : Story α) : erase w.attempt = w.erase.attempt :=
  Account.erase_attempt w

end Story

end

/-! ## Batches -/

/-- Work of the hub itself, which belongs to no turn. -/
def silently {α : Type} (m : Act Hub α) : Story α :=
  .of (fun _ => .other) (View.whole.work m)

def namesStory (r : Request) (listener : Option (BatchListener Hub)) :
    List String → Story (List Analysis)
  | [] => return []
  | name :: names => do
    if ← .of (fun h => .looks name h.cancelled) (View.whole.work (stopsBefore name)) then return []
    else
      match ← .of (fun _ => .turn name) (turn View.whole r listener name) with
      | none => namesStory r listener names
      | some a => return a :: (← namesStory r listener names)

def executeStory (names : List String) (r : Request) (listener : Option (BatchListener Hub)) :
    Story (List Analysis) := do
  silently (setRunning true)
  let result ← (namesStory r listener names).attempt
  silently (setRunning false)
  Story.ofExcept result

def runBatchStory (names : List String) (r : Request) : Story (List Analysis) := do
  silently (checkNames names)
  .of (fun _ => .clears) (View.whole.work clearCancel)
  executeStory names r none

def taskStory (names : List String) (r : Request) (listener : Option (BatchListener Hub))
    (completion : Option (List Analysis → Work Hub Unit)) : Story (List Analysis) := do
  let tell (as : List Analysis) : Story Unit :=
    .of (fun _ => .other)
      (match completion with
      | none => pure ()
      | some f => f as)
  let whole : Story (List Analysis) := do
    silently (checkNames names)
    executeStory names r listener
  match ← whole.attempt with
  | .ok as =>
    tell as
    return as
  | .error f =>
    silently (inWorld (report ⟨.error, .orchestrator, "Batch analysis failed", none, none, some f⟩))
    tell []
    throw f

def runSingleStory (name : String) (r : Request) : Story Analysis := do
  let i ← silently (require name)
  if !(← silently (isAvailable i)) then throw (.toolUnavailable name)
  else
    silently (setRunning true)
    .of (fun _ => .clears) (View.whole.work clearCancel)
    .of (fun _ => .other) do
      View.whole.work (say .info name s!"Running {name} ...")
      let result ← (execute View.whole i r).attempt
      View.whole.work (setRunning false)
      Work.ofExcept result

@[simp] theorem erase_silently {α : Type} (m : Act Hub α) :
    (silently m).erase = View.whole.work m :=
  Story.erase_of _ _

theorem erase_namesStory (r : Request) (listener : Option (BatchListener Hub)) (names : List String) :
    (namesStory r listener names).erase = runNames View.whole r listener names := by
  induction names with
  | nil => rfl
  | cons name names ih =>
    rw [runNames_cons, namesStory, Story.erase_bind, Story.erase_of]
    congr 1
    funext stops
    cases stops with
    | true => rfl
    | false =>
      simp only [Bool.false_eq_true, if_false]
      rw [Story.erase_bind, Story.erase_of]
      congr 1
      funext a
      cases a with
      | none => exact ih
      | some a =>
        dsimp only
        rw [Story.erase_bind, ih]
        rfl

@[simp] theorem erase_executeStory (names : List String) (r : Request)
    (listener : Option (BatchListener Hub)) :
    (executeStory names r listener).erase = executeBatch View.whole names r listener := by
  simp [executeStory, executeBatch, erase_namesStory]

theorem erase_runBatchStory (names : List String) (r : Request) :
    (runBatchStory names r).erase = runBatch View.whole names r := by
  simp [runBatchStory, runBatch]

theorem erase_taskStory (names : List String) (r : Request) (listener : Option (BatchListener Hub))
    (completion : Option (List Analysis → Work Hub Unit)) :
    (taskStory names r listener completion).erase = task View.whole names r listener completion := by
  unfold taskStory task
  simp only [Story.erase_bind, Story.erase_attempt, erase_silently, erase_executeStory]
  congr 1
  funext e
  cases e <;> cases completion <;> simp

theorem erase_runSingleStory (name : String) (r : Request) :
    (runSingleStory name r).erase = runSingle View.whole name r := by
  unfold runSingleStory runSingle
  simp only [Story.erase_bind, erase_silently]
  congr 1
  funext i
  congr 1
  funext found
  cases found <;> simp

/-! ## Calls -/

inductive Call where
  | cancel
  | single (name : String) (r : Request)
  | batch (names : List String) (r : Request)
  /-- A batch that is handed over to be run in the background. -/
  | background (names : List String) (r : Request) (listener : Option (BatchListener Hub))
    (completion : Option (List Analysis → Work Hub Unit))

namespace Call

def work : Call → Work Hub Unit
  | cancel => do discard (View.whole.work Hub.cancel)
  | single name r => do discard (runSingle View.whole name r)
  | batch names r => do discard (runBatch View.whole names r)
  | background names r listener completion => do
    View.whole.work submit
    discard (task View.whole names r listener completion)

def story : Call → Story Unit
  | cancel => do discard (Story.of (fun _ => .cancels) (View.whole.work Hub.cancel))
  | single name r => do discard (runSingleStory name r)
  | batch names r => do discard (runBatchStory names r)
  | background names r listener completion => do
    .of (fun _ => .clears) (View.whole.work submit)
    discard (taskStory names r listener completion)

/-- Forgetting what is told, a story is the call itself. -/
theorem erase_story (c : Call) : c.story.erase = c.work := by
  cases c with
  | cancel => simp [story, work]
  | single name r => simp [story, work, erase_runSingleStory]
  | batch names r => simp [story, work, erase_runBatchStory]
  | background names r listener completion => simp [story, work, erase_taskStory]

end Call

end LintHub.Hub
