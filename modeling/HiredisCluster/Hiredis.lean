import HiredisCluster.ClusterException

/-!
# What the library sees of hiredis

Reply objects as a tree of the types of `hiredis.h`, pointers to them, and the connection contexts.  The fields of a
reply are meaningful only for its type, so reading `integer`, `str` or an element that the reply does not have is
undefined.
-/

namespace HiredisCluster

open Cxx

/-- `REDIS_REPLY_*`; `other` stands for the types the library does not know. -/
inductive ReplyType where
  | string | array | integer | nil | status | error | other
  deriving DecidableEq, Repr

/-- `redisReply`. -/
inductive RedisReply where
  | string (str : Chars)
  | array (element : List RedisReply)
  | integer (integer : Int64)
  | nil
  | status (str : Chars)
  | error (str : Chars)
  | other

namespace RedisReply

def type : RedisReply → ReplyType
  | string _ => .string
  | array _ => .array
  | integer _ => .integer
  | nil => .nil
  | status _ => .status
  | error _ => .error
  | other => .other

/-- `reply->elements`, zero unless the reply is an array. -/
def elements : RedisReply → Nat
  | array element => element.length
  | _ => 0

/-- `reply->element[i]`. -/
def elementAt (r : RedisReply) (i : Nat) : Outcome Exn RedisReply :=
  match r with
  | array element =>
    match element[i]? with
    | some e => .ret e
    | none => .undefined
  | _ => .undefined

/-- `reply->integer`. -/
def integerOf : RedisReply → Outcome Exn Int64
  | integer i => .ret i
  | _ => .undefined

/-- `reply->str` with `reply->len`. -/
def strOf : RedisReply → Outcome Exn Chars
  | string s | status s | error s => .ret s
  | _ => .undefined

end RedisReply

/-- A `redisReply *`: null, never assigned, or the address of a reply object. -/
inductive ReplyPtr where
  | null
  | unset
  | object (address : Nat) (reply : RedisReply)

/-- The reply object pointed at. -/
def ReplyPtr.object? : ReplyPtr → Option RedisReply
  | object _ reply => some reply
  | _ => none

theorem ReplyPtr.eq_object {p : ReplyPtr} {reply : RedisReply} (h : p.object? = some reply) :
    ∃ address, p = .object address reply := by
  cases p <;> cases h
  exact ⟨_, rfl⟩

/-- A non-null pointer to a connection context. -/
abbrev ConPtr := Nat

/-- `REDIS_OK` and `REDIS_ERR`. -/
inductive Status where
  | ok
  | err
  deriving DecidableEq, Repr

/-- A connection context.  `host` and `port` are the arguments it was opened with, `err` tells whether the field `err`
is non-zero, `disconnecting` that `redisAsyncDisconnect` was issued on it, `disconnected` that its disconnect callback
has fired. -/
structure Context where
  host : Bytes
  port : Int32
  err : Bool
  errstr : Bytes
  disconnecting : Bool
  disconnected : Bool
  deriving DecidableEq, Repr

/-- A connection as it is just after it was opened without an error. -/
def Context.opened (host : Bytes) (port : Int32) : Context :=
  { host, port, err := false, errstr := [], disconnecting := false, disconnected := false }

@[simp] theorem Context.err_opened (host : Bytes) (port : Int32) : (Context.opened host port).err = false := rfl

/-- What the code shared by both clients needs of the code it is part of. -/
class HiredisCalls (m : Type → Type) where
  outcome : {α : Type} → Outcome Exn α → m α
  readReply : ReplyPtr → m RedisReply
  freeReplyObject : ReplyPtr → m Unit
  err : ConPtr → m Bool

export HiredisCalls (outcome readReply freeReplyObject)

/-- `throw E(reply, …)`: the constructors of `ClusterException` free the reply they are given unless it is null. -/
def raise {m : Type → Type} [Monad m] [HiredisCalls m] {α : Type} (reply : ReplyPtr) (e : ClusterException) : m α := do
  match reply with
  | .null => pure ()
  | _ => freeReplyObject reply
  outcome (.throws (.cluster e))

end HiredisCluster
