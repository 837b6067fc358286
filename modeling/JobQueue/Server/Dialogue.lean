import JobQueue.Binary64.Text
import JobQueue.Server.Reply
import JobQueue.Store

/-! # Talking to a server

Each request is one conversation: commands go out, and each is answered before the request is. What must
happen at one moment is a script, which the server knows by its digest once it has seen its text, or
a transaction, whose commands are queued by the server until the last one.
-/

namespace JobQueue

/-- A conversation that ends with an `α` or fails with an `ε`. -/
inductive Dialogue (ε α : Type) where
  | done (answer : Except ε α)
  /-- Sends a command, as its words, and goes on with the reply. -/
  | send (command : List String) (next : Except ServerError Reply → Dialogue ε α)

/-- A script that runs at one moment, and the digest that the server knows it by. -/
structure Script where
  text : String
  digest : String

namespace Script

/-- Takes a job that is ready from a queue and puts it at the head of the jobs in flight. -/
def popToInflight : Script where
  digest := "55529531642588638faf4941170a910ff54095a9"
  text := "\n".intercalate [
    "",
    "    local queue_key = KEYS[1]",
    "    local recurring_key = KEYS[2]",
    "    local inflight_key = KEYS[3]",
    "    local now = ARGV[1]",
    "",
    "    local payload = false",
    "    local queue_type = redis.call('TYPE', queue_key).ok",
    "    if queue_type == 'zset' then",
    "        local ready = redis.call('ZRANGEBYSCORE', queue_key, '-inf', now, 'LIMIT', 0, 1)",
    "        if ready[1] then",
    "            payload = ready[1]",
    "            local frequency = redis.call('HGET', recurring_key, payload)",
    "            if frequency then",
    "                redis.call('ZINCRBY', queue_key, frequency, payload)",
    "            else",
    "                redis.call('ZREM', queue_key, payload)",
    "            end",
    "        end",
    "    elseif queue_type == 'list' then",
    "        payload = redis.call('LPOP', queue_key)",
    "    end",
    "",
    "    if payload then",
    "        redis.call('LPUSH', inflight_key, payload)",
    "    end",
    "    return payload",
    ""]

/-- Takes the head of the jobs in flight back to its queue. -/
def restoreInflight : Script where
  digest := "69774f15b15753d5124dc3c012a435ffcb32aab1"
  text := "\n".intercalate [
    "",
    "    local inflight_key = KEYS[1]",
    "    local queue_key = KEYS[2]",
    "    local recurring_key = KEYS[3]",
    "    local now = ARGV[1]",
    "",
    "    local payload = redis.call('LPOP', inflight_key)",
    "    if not payload then",
    "        return false",
    "    end",
    "",
    "    if redis.call('HEXISTS', recurring_key, payload) == 1 then",
    "        return payload",
    "    end",
    "",
    "    if redis.call('TYPE', queue_key).ok == 'zset' then",
    "        redis.call('ZADD', queue_key, now, payload)",
    "    else",
    "        redis.call('LPUSH', queue_key, payload)",
    "    end",
    "    return payload",
    ""]

/-- Deletes a key that holds an expected string. -/
def compareAndDelete : Script where
  digest := "d7be9a0b41751ef6920b20d4d0b631d6f125815d"
  text := "\n".intercalate [
    "",
    "    if redis.call('GET', KEYS[1]) == ARGV[1] then",
    "        return redis.call('DEL', KEYS[1])",
    "    else",
    "        return 0",
    "    end",
    ""]

/-- The command that runs a script by its digest, with keys and arguments. -/
def command (script : Script) (keys args : List String) : List String :=
  "EVALSHA" :: script.digest :: toString keys.length :: (keys ++ args)

end Script

namespace Dialogue

variable {ε α : Type}

/-- Ends with what a server's answer is read as. -/
def conclude (answer : Except ServerError α) : Dialogue StoreError α :=
  .done (match answer with
    | .ok a => .ok a
    | .error error => .error (.server error))

/-- Sends one command and reads its reply. -/
def command (words : List String) (read : Reply → Except ServerError α) : Dialogue StoreError α :=
  .send words fun
    | .ok reply => conclude (read reply)
    | .error error => conclude (.error error)

/-- Runs a script; one that the server does not know is sent first. -/
def run (script : Script) (keys args : List String) (read : Reply → Except ServerError α) :
    Dialogue StoreError α :=
  let again := command (script.command keys args) read
  .send (script.command keys args) fun
    | .ok reply => conclude (read reply)
    | .error error =>
      if error.isUnknownScript then .send ["SCRIPT", "LOAD", script.text] fun
        | .ok _ => again
        | .error error => conclude (.error error)
      else conclude (.error error)

/-- Sends commands one after the other, whatever the replies, and goes on with all of these. -/
def sendAll (next : List (Except ServerError Reply) → Dialogue ε α) :
    List (List String) → List (Except ServerError Reply) → Dialogue ε α
  | [], replies => next replies
  | words :: rest, replies => .send words fun reply => sendAll next rest (replies ++ [reply])

end Dialogue

/-- A write as the words of a command. -/
def Write.words : Write → List String
  | addMember key member => ["SADD", key, member]
  | append key value => ["RPUSH", key, value]
  | prepend key value => ["LPUSH", key, value]
  | schedule key score member => ["ZADD", key, NumberLayout.score.write score, member]
  | unschedule key member => ["ZREM", key, member]
  | setField key field value => ["HSET", key, field, value]
  | dropField key field => ["HDEL", key, field]

/-- What the replies to the commands of a transaction of so many writes mean: the first error counts, and
nil in place of a list says that nothing was written. -/
def transactionAnswer (writes : Nat) (replies : List (Except ServerError Reply)) : Except StoreError Unit :=
  match replies.findSome? fun
    | .error error => some error
    | .ok _ => none with
  | some error => .error (.server error)
  | none => match replies.getLast? with
    | some (.ok .nil) => .error (.discardedWrites writes)
    | some (.ok (.array _)) => .ok ()
    | _ => .error (.server .noTransaction)

/-- The conversation about a request. -/
def Request.dialogue : (request : Request) → Dialogue StoreError request.Reply
  | ping => .send ["PING"] fun
    | .error error => Dialogue.conclude (.error error)
    | .ok reply => match reply.text with
      | .error error => Dialogue.conclude (.error error)
      | .ok text => .done (if text = "PONG" then .ok () else .error (.oddPong text))
  | keyType key => .command ["TYPE", key] fun reply => reply.text.map KeyType.ofName
  | get key => .command ["GET", key] JobQueue.Reply.text?
  | setIfAbsent key value => .command ["SETNX", key, value] JobQueue.Reply.flag
  | expire key seconds => .command ["EXPIRE", key, toString seconds] JobQueue.Reply.flag
  | timeToLive key => .command ["TTL", key] fun reply => reply.number.map TimeToLive.ofNumber
  | delete key => .command ["DEL", key] fun reply => reply.count.map (0 < ·)
  | compareAndDelete key expected =>
    .run .compareAndDelete [key] [expected] fun reply => reply.number.map (· == 1)
  | transaction writes =>
    if writes.isEmpty then .done (.ok ())
    else .sendAll (fun replies => .done (transactionAnswer writes.length replies))
      (["MULTI"] :: (writes.map Write.words ++ [["EXEC"]])) []
  | popToInflight route now =>
    .run .popToInflight [route.queue, route.recurring, route.inflight] [toString now] JobQueue.Reply.text?
  | popInflight key => .command ["LPOP", key] JobQueue.Reply.text?
  | restoreInflight route now =>
    .run .restoreInflight [route.inflight, route.queue, route.recurring] [toString now] JobQueue.Reply.text?
  | publish channel message => .command ["PUBLISH", channel, message] JobQueue.Reply.count

end JobQueue
