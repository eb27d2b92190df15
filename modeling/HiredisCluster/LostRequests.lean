import HiredisCluster.FailedCommands

/-!
# Requests lost with their connection

When a connection is lost, hiredis calls the callbacks of its requests with a null reply.  Both callbacks hand the
reply to `checkCritical`, which reads its type before anything else: no request survives this
(`not_survivesLoss`), and a connection ends without undefined behaviour exactly when it is idle
(`disconnected_defined_iff`).
-/

namespace HiredisCluster

open Cxx AsyncHiredisCommand

/-- hiredis ends the oldest request of a lost connection; the environment decides as `choices` says. -/
def loseRequest (req : Request) (choices : Choices) : Async Unit := do
  Code.modify fun w => w.choose choices
  endRequests req.con [req]

/-- The callback of the request gets a null reply and copes: nothing undefined happens, the error handler of the command
is told of an exception if there is one, and the object is deleted once unless the command was sent again. -/
structure SurvivesLoss (w : AsyncWorld) (req : Request) (choices : Choices) : Prop where
  defined : (loseRequest req choices w).1 ≠ .undefined
  settled : ∃ evs, (loseRequest req choices w).2.client.trace = w.client.trace ++ evs ∧
    (∀ obj, w.Holds req.data obj → obj.userErrorCb_ = true →
      ∃ e state, Event.userErrorCb req.data e state ∈ evs) ∧
    ((∃ q cause, Event.sent q cause ∈ evs ∧ q.data = req.data) ∨ evs.countP (Event.deletes req.data) = 1)

/-- The callback ends before it has told anyone, sent anything or deleted the object. -/
private theorem loseRequest_eq (w : AsyncWorld) (req : Request) (choices : Choices) :
    loseRequest req choices w = (.undefined, w.updClient fun c =>
      { c with choices := choices, pending := c.pending.eraseP (·.con = req.con) }) :=
  -- the null reply reaches `checkCritical` from either callback
  (Code.bind_of_ret (Code.modify_apply _ w) _).trans ((Code.bind_of_ret (Code.modify_apply _ _) _).trans
    (Code.bind_of_undefined (callback_null ..) _))

/-- In no state does a request survive the loss of its connection, whichever callback it has and whatever its error
handler would answer. -/
theorem not_survivesLoss (w : AsyncWorld) (req : Request) (choices : Choices) : ¬ SurvivesLoss w req choices := by
  intro hall
  apply hall.defined
  rw [loseRequest_eq]

/-- The command was sent, and its connection is lost before the reply. -/
theorem not_survivesLoss_getKey : ∃ w hist req, UseRun w hist ∧ w.oldest req.con = some req ∧
    ¬ SurvivesLoss w req calm := by
  have hsent : UseRun (Use.exec (.occurrence (.stimulus (.command getKey calm))) oneNode).2 _ :=
    .next (.start oneNode_initial) (Prod.ext (show _ = Outcome.ret () by decide +kernel) rfl)
  have hpending : (Use.exec (.occurrence (.stimulus (.command getKey calm))) oneNode).2.client.pending =
      [⟨0, .processCommandReply, 0, .formatted (text "GET k")⟩] := by
    decide +kernel
  refine ⟨_, _, ⟨0, .processCommandReply, 0, .formatted (text "GET k")⟩, hsent, ?_, fun hall => ?_⟩
  · unfold World.oldest
    rw [hpending]
    rfl
  · apply hall.defined
    rw [loseRequest_eq]

/-! ### Connections that may end -/

/-- A connection that hiredis has not freed ends without undefined behaviour exactly when no request is outstanding on
it. -/
theorem disconnected_defined_iff {w : AsyncWorld} {hist : List (AsyncWorld × Occurrence)} (r : OccurrenceRun w hist)
    {con : ConPtr} (hopen : w.Open con) :
    ((Occurrence.disconnected con).exec w).1 ≠ .undefined ↔ ∀ req ∈ w.client.pending, req.con ≠ con := by
  constructor
  · intro hdefined req hreq hcon
    exact hdefined (disconnected_busy ⟨req, hreq, hcon⟩)
  · intro hidle
    obtain ⟨v, -, hrun⟩ := disconnected_idle (attached_of_run r) hopen hidle
    rw [hrun]
    simp

end HiredisCluster
