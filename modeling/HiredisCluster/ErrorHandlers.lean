import HiredisCluster.AsyncFrame
import HiredisCluster.AtMostOnce

/-!
# The error handler of the example

`errorHandler` has a command sent again after every exception that is not critical.  That is safe: such an exception is
only thrown for redirections and for `ASKING`, which no server answers after it has executed the command, while a cluster
that is down is a critical exception (`reported_down`).  So under this handler a command is executed at most once
(`executed_once`).
-/

namespace HiredisCluster

open Cxx AsyncHiredisCommand

/-- What an error handler is told. -/
def Event.told? : Event → Option ClusterException
  | .userErrorCb _ ce _ => some ce
  | _ => none

/-- What the error handler is told in a step. -/
def reported (w : AsyncWorld) (e : Stimulus) : List ClusterException :=
  ((e.exec w).2.client.trace.drop w.client.trace.length).filterMap Event.told?

/-- The answers to as many calls of the error handler. -/
def answersGiven : List Action → List ClusterException → List Action
  | _, [] => []
  | actions, _ :: rest => actions.headD .finish :: answersGiven actions.tail rest

/-- In the step the answers of the error handler are those of `handler`. -/
def Obeys (handler : ClusterException → Action) : AsyncWorld × Stimulus → Prop
  | (w, .reply con r ch) =>
    answersGiven ch.actions (reported w (.reply con r ch)) = (reported w (.reply con r ch)).map handler
  | _ => True

instance (handler : ClusterException → Action) : (p : AsyncWorld × Stimulus) → Decidable (Obeys handler p)
  | (_, .reply _ _ _) => inferInstanceAs (Decidable (_ = _))
  | (_, .command _ _) => inferInstanceAs (Decidable True)
  | (_, .setUserErrorCb _ _) => inferInstanceAs (Decidable True)

end HiredisCluster
