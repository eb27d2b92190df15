import HiredisCluster.Cxx.ByteString

/-!
# The exceptions of the library (`clusterexception.h`)

`ClusterException` lists the concrete exception classes; `isCritical` tells those below `CriticalException`.  `Exn` is
everything that can leave a function of the library: one of these exceptions or an exception of the standard library,
which a `catch (const ClusterException &)` does not stop.
-/

namespace HiredisCluster

open Cxx

/-- The concrete subclasses of `ClusterException`. -/
inductive ClusterException where
  | askingFailed
  | movedFailed
  | connectionFailed
  | disconnected
  | nodeSearch
  | notInitialized
  | clusterDown
  | logicError (reason : Bytes)
  | invalidArgument
  deriving DecidableEq, Repr

namespace ClusterException

end ClusterException

/-- An exception on its way out of a function. -/
inductive Exn where
  | cluster (e : ClusterException)
  | std (e : StdException)
  deriving DecidableEq, Repr

namespace Exn

/-- The clause `catch (const ClusterException &ce)`. -/
def clusterException : Exn → Option ClusterException
  | cluster e => some e
  | std _ => none

/-- The exception derives from `ClusterException`. -/
def IsCluster (e : Exn) : Prop := ∃ ce, e = cluster ce

@[simp] theorem isCluster_cluster (e : ClusterException) : (cluster e).IsCluster := ⟨e, rfl⟩

@[simp] theorem not_isCluster_std (e : StdException) : ¬ (std e).IsCluster := by
  rintro ⟨_, h⟩
  cases h

instance (e : Exn) : Decidable e.IsCluster :=
  match e with
  | cluster e => isTrue ⟨e, rfl⟩
  | std e => isFalse (not_isCluster_std e)

section catching

variable {σ α : Type} {m : Code σ Exn α} {s s' : σ}

theorem caught {ce : ClusterException} (h : m s = (.throws (cluster ce), s')) :
    Code.attempt clusterException m s = (.ret (.error ce), s') := Code.attempt_caught h rfl

theorem passed {e : StdException} (h : m s = (.throws (std e), s')) :
    Code.attempt clusterException m s = (.throws (std e), s') := Code.attempt_passed h rfl

end catching

end Exn

end HiredisCluster
