import Caal.Lib.Transfer
import Caal.Proto

/-!
# The client library

`caald_client.c`: the requests it builds from the caller's C strings, and the
functions that send a request on a connection and read the answer. The other end
of the connection is a `Peer`, which answers the bytes it is sent.
-/

namespace Caal

open CMemory Transfer

/-! ## Requests -/

namespace Request

/-- The request of `caald_session_register`. -/
def register (username containerId : Bytes) (pid : Int32) : Request :=
  { zero with
    type := MsgType.sessionRegister.toByte
    username := zero.username.strncpy username
    containerId := zero.containerId.strncpy containerId
    pid := pid }

/-- The request of `caald_session_unregister`. -/
def unregister (containerId : Bytes) : Request :=
  { zero with
    type := MsgType.sessionUnregister.toByte
    containerId := zero.containerId.strncpy containerId }

/-- The request of `caald_session_count`. -/
def count : Request :=
  { zero with type := MsgType.sessionCount.toByte }

/-- The request of `caald_session_list`. -/
def list : Request :=
  { zero with type := MsgType.sessionList.toByte }

/-- The request of `caald_session_kill`. -/
def kill (containerId : Bytes) : Request :=
  { zero with
    type := MsgType.sessionKill.toByte
    containerId := zero.containerId.strncpy containerId }

/-- The request of `caald_session_kill_user`. -/
def killUser (username : Bytes) : Request :=
  { zero with
    type := MsgType.sessionKillUser.toByte
    username := zero.username.strncpy username }

end Request

/-! ## Calls on a connection -/

/-- The other end of a connection, as the calls of one library function see it:
how they move the bytes of the two streams, and what is answered to what was
sent. -/
structure Peer where
  writes : Schedule
  reads : Schedule
  answer : Bytes → Bytes

/-- A library function returns, or `SIGPIPE` ends the process in it. -/
inductive Completion (α : Type) where
  | returned (value : α)
  | killed
  deriving DecidableEq

def Completion.map {α β : Type} (f : α → β) : Completion α → Completion β
  | .returned value => .returned (f value)
  | .killed => .killed

/-- A response, with the stream behind it and the calls left to read it. -/
structure Answered where
  response : Response
  input : Bytes
  reads : Schedule

/-- `send_request` followed by `recv_response`; `none` if either fails. -/
def Peer.exchange (peer : Peer) (request : Request) : Completion (Option Answered) :=
  let written := writeAll peer.writes request.bytes
  match written.status with
  | .killed => .killed
  | .failed => .returned none
  | .complete =>
      let received := readAll peer.reads Response.size (peer.answer written.sent)
      .returned (received.got.map fun bytes =>
        ⟨Response.ofBytes bytes, received.input, received.rest⟩)

/-- What `register`, `unregister`, `kill` and `kill_user` return: the `ok` of the
response, or false. -/
def Peer.accepts (peer : Peer) (request : Request) : Completion Bool :=
  (peer.exchange request).map fun answered =>
    match answered with
    | none => false
    | some answered => answered.response.ok != 0

/-- `caald_session_register`. -/
def sessionRegister (peer : Peer) (username containerId : Bytes) (pid : Int32) : Completion Bool :=
  peer.accepts (.register username containerId pid)

/-- `caald_session_unregister`. -/
def sessionUnregister (peer : Peer) (containerId : Bytes) : Completion Bool :=
  peer.accepts (.unregister containerId)

/-- `caald_session_kill`. -/
def sessionKill (peer : Peer) (containerId : Bytes) : Completion Bool :=
  peer.accepts (.kill containerId)

/-- `caald_session_kill_user`. -/
def sessionKillUser (peer : Peer) (username : Bytes) : Completion Bool :=
  peer.accepts (.killUser username)

/-- `caald_session_count`. -/
def sessionCount (peer : Peer) : Completion Int :=
  (peer.exchange .count).map fun answered =>
    match answered with
    | none => -1
    | some answered =>
        if answered.response.ok = 0 then -1 else answered.response.count.toInt

/-- The loop of `caald_session_list` over the caller's array. -/
def readRecords : Nat → Schedule → Bytes → Option (List SessionInfo)
  | 0, _, _ => some []
  | count + 1, reads, input =>
      let received := readAll reads SessionInfo.size input
      match received.got with
      | none => none
      | some bytes =>
          (readRecords count received.rest received.input).map (SessionInfo.ofBytes bytes :: ·)

/-- What `caald_session_list` returns, with the records it stored if it did not
fail. -/
structure Listing where
  returned : Int
  records : List SessionInfo
  deriving DecidableEq

def Listing.error : Listing := ⟨-1, []⟩

/-- `caald_session_list` into an array of `maxSessions` records. -/
def sessionList (peer : Peer) (maxSessions : Int) : Completion Listing :=
  (peer.exchange .list).map fun answered =>
    match answered with
    | none => .error
    | some answered =>
        if answered.response.ok = 0 then .error
        else
          let count := min answered.response.count.toInt maxSessions
          match readRecords count.toNat answered.reads answered.input with
          | none => .error
          | some records => ⟨count, records⟩

/-! ## What arrives -/

/-- A string field of a request built here: the caller's string cut to one byte
less than the field, and terminated. -/
theorem field_strncpy (source : Bytes) :
    ((Buf.zero 64).strncpy source).text = (cstr source).take 63 ∧
      Terminated ((Buf.zero 64).strncpy source).bytes :=
  ⟨Buf.text_strncpy_zero source, Buf.terminated_strncpy_zero source⟩

/-- With no failing call the peer gets exactly the request. -/
theorem Peer.exchange_flowing {peer : Peer} (writes : Flowing peer.writes)
    (reads : Flowing peer.reads) {request : Request} {response : Response} {rest : Bytes}
    (answer : peer.answer request.bytes = response.bytes ++ rest) :
    ∃ schedule, Flowing schedule ∧
      peer.exchange request = .returned (some ⟨response, rest, schedule⟩) := by
  rcases writes.progress request.bytes.length with ⟨moved, unbroken, _⟩
  have written : (writeAll peer.writes request.bytes).status = .complete ∧
      (writeAll peer.writes request.bytes).sent = request.bytes := by
    rw [writeAll_eq, moved, if_neg unbroken, if_pos rfl]
    exact ⟨rfl, List.take_length⟩
  have enough : Response.size ≤ (response.bytes ++ rest).length := by
    rw [List.length_append, Response.length_bytes]
    exact Nat.le_add_right _ _
  rcases readAll_flowing reads enough with ⟨schedule, flowing, received⟩
  refine ⟨schedule, flowing, ?_⟩
  rw [exchange]
  simp only [written.1, written.2, answer, received, Option.map_some]
  rw [List.take_left' response.length_bytes, List.drop_left' response.length_bytes,
    Response.ofBytes_bytes]

/-- With no failing call the loop of `caald_session_list` gets the records that
were sent. -/
theorem readRecords_flowing {reads : Schedule} (flowing : Flowing reads)
    (records : List SessionInfo) (rest : Bytes) :
    readRecords records.length reads ((records.map SessionInfo.bytes).flatten ++ rest) =
      some records := by
  induction records generalizing reads with
  | nil => rfl
  | cons record records ih =>
      have enough : SessionInfo.size ≤
          (record.bytes ++ ((records.map SessionInfo.bytes).flatten ++ rest)).length := by
        rw [List.length_append, record.length_bytes]
        exact Nat.le_add_right _ _
      rcases readAll_flowing flowing enough with ⟨schedule, flowingRest, received⟩
      rw [List.length_cons, readRecords, List.map_cons, List.flatten_cons, List.append_assoc,
        received]
      simp only [List.take_left' record.length_bytes, List.drop_left' record.length_bytes,
        SessionInfo.ofBytes_bytes]
      rw [ih flowingRest, Option.map_some]

/-- Whatever the calls, a loop of `caald_session_list` that succeeds over the front
of a stream of records has read the first of these. -/
theorem readRecords_of_front {reads : Schedule} {input : Bytes} {count : Nat}
    {records got : List SessionInfo}
    (front : input <+: (records.map SessionInfo.bytes).flatten)
    (read : readRecords count reads input = some got) :
    got = records.take count ∧ count ≤ records.length := by
  induction count generalizing reads input records got with
  | zero =>
      cases read
      exact ⟨List.take_zero.symm, Nat.zero_le _⟩
  | succ count ih =>
      rw [readRecords] at read
      cases received : (readAll reads SessionInfo.size input).got with
      | none => simp [received] at read
      | some bytes =>
          simp only [received, Option.map_eq_some_iff] at read
          rcases read with ⟨more, readMore, rfl⟩
          rcases readAll_some received with ⟨enough, bytesEq, restEq⟩
          cases records with
          | nil =>
              have empty : input = [] := List.prefix_nil.mp front
              rw [empty] at enough
              exact (Nat.not_succ_le_zero _ enough).elim
          | cons record records =>
              rw [List.map_cons, List.flatten_cons] at front
              rcases front with ⟨tail, equal⟩
              have first : input.take SessionInfo.size = record.bytes := by
                have cut := congrArg (List.take SessionInfo.size) equal
                rwa [List.take_append_of_le_length enough,
                  List.take_left' record.length_bytes] at cut
              have others : input.drop SessionInfo.size <+:
                  (records.map SessionInfo.bytes).flatten := by
                have dropped := congrArg (List.drop SessionInfo.size) equal
                rw [List.drop_append_of_le_length enough,
                  List.drop_left' record.length_bytes] at dropped
                exact ⟨tail, dropped⟩
              rw [restEq] at readMore
              rcases ih others readMore with ⟨moreEq, bound⟩
              refine ⟨?_, Nat.succ_le_succ bound⟩
              rw [bytesEq, first, SessionInfo.ofBytes_bytes, moreEq, List.take_succ_cons]

end Caal
