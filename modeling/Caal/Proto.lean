import Caal.Lib.CMemory

/-!
# The wire structures of the daemon protocol

`caald_proto.h`: one fixed-size request for all message types, one fixed-size
response, and the record that a LIST reply repeats. The structures are packed,
so a structure in memory is the concatenation of its fields.
-/

namespace Caal

open CMemory

/-- `CAALD_MAX_STR`. -/
abbrev maxStr : Nat := 64

/-- A character field of the protocol. -/
abbrev Field := Buf maxStr

/-- `caald_msg_type_t`. -/
inductive MsgType where
  | sessionRegister
  | sessionUnregister
  | sessionCount
  | sessionList
  | sessionKill
  | sessionKillUser
  deriving DecidableEq, Repr

namespace MsgType

def toByte : MsgType → UInt8
  | .sessionRegister => 1
  | .sessionUnregister => 2
  | .sessionCount => 3
  | .sessionList => 4
  | .sessionKill => 5
  | .sessionKillUser => 6

/-- The cases of the `switch` on `req.type`; `none` is its `default`. -/
def ofByte : UInt8 → Option MsgType
  | 1 => some .sessionRegister
  | 2 => some .sessionUnregister
  | 3 => some .sessionCount
  | 4 => some .sessionList
  | 5 => some .sessionKill
  | 6 => some .sessionKillUser
  | _ => none

@[simp] theorem ofByte_toByte (type : MsgType) : ofByte type.toByte = some type := by
  cases type <;> rfl

end MsgType

/-- `caald_request_t`. -/
structure Request where
  type : UInt8
  username : Field
  containerId : Field
  pid : Int32
  deriving DecidableEq

/-- `caald_response_t`. -/
structure Response where
  ok : UInt8
  count : Int32
  error : Field
  deriving DecidableEq

/-- `caald_session_info_t`. -/
structure SessionInfo where
  username : Field
  containerId : Field
  pid : Int32
  startTime : Int64
  deriving DecidableEq

namespace Request

/-- `caald_request_t req = {0}`. -/
def zero : Request := ⟨0, .zero _, .zero _, 0⟩

/-- `sizeof(caald_request_t)`. -/
abbrev size : Nat := 133

def bytes (request : Request) : Bytes :=
  request.type :: (request.username.bytes ++ (request.containerId.bytes ++
    int32Bytes request.pid))

/-- The structure a zeroed request becomes when `memory` is read into it. -/
def ofBytes (memory : Bytes) : Request where
  type := memory.headD 0
  username := .load _ (memory.drop 1)
  containerId := .load _ (memory.drop 65)
  pid := int32Of (memory.drop 129)

@[simp] theorem length_bytes (request : Request) : request.bytes.length = size := by
  simp [bytes, maxStr, size]

/-- Memory from the `username` field on: the field, and what follows it. -/
theorem drop_username (request : Request) :
    request.bytes.drop 1 = request.username.bytes ++ (request.containerId.bytes ++
      int32Bytes request.pid) := rfl

/-- Memory from the `container_id` field on. -/
theorem drop_containerId (request : Request) :
    request.bytes.drop 65 = request.containerId.bytes ++ int32Bytes request.pid := by
  rw [bytes, List.drop_succ_cons, List.drop_left' request.username.length_bytes]

theorem drop_pid (request : Request) : request.bytes.drop 129 = int32Bytes request.pid := by
  have split : request.bytes.drop 129 = (request.bytes.drop 65).drop 64 := by
    rw [List.drop_drop]
  rw [split, drop_containerId, List.drop_left' request.containerId.length_bytes]

@[simp] theorem ofBytes_bytes (request : Request) : ofBytes request.bytes = request := by
  cases request with
  | mk type username containerId pid =>
      have pidEq := int32Of_bytes_append pid []
      rw [List.append_nil] at pidEq
      simp only [ofBytes, drop_username, drop_containerId, drop_pid, Buf.load_bytes_append,
        pidEq]
      rfl

end Request

namespace Response

/-- `caald_response_t resp = {0}`. -/
def zero : Response := ⟨0, 0, .zero _⟩

/-- `sizeof(caald_response_t)`. -/
abbrev size : Nat := 69

def bytes (response : Response) : Bytes :=
  response.ok :: (int32Bytes response.count ++ response.error.bytes)

def ofBytes (memory : Bytes) : Response where
  ok := memory.headD 0
  count := int32Of (memory.drop 1)
  error := .load _ (memory.drop 5)

@[simp] theorem length_bytes (response : Response) : response.bytes.length = size := by
  simp [bytes, maxStr, size]

@[simp] theorem ofBytes_bytes (response : Response) : ofBytes response.bytes = response := by
  cases response with
  | mk ok count error =>
      have errorEq := Buf.load_bytes_append error []
      rw [List.append_nil] at errorEq
      have rest : (Response.bytes ⟨ok, count, error⟩).drop 5 = error.bytes := by
        rw [bytes, List.drop_succ_cons, List.drop_left' (length_int32Bytes count)]
      simp only [ofBytes, rest, errorEq]
      simp [bytes]

end Response

namespace SessionInfo

/-- `caald_session_info_t info = {0}`. -/
def zero : SessionInfo := ⟨.zero _, .zero _, 0, 0⟩

/-- `sizeof(caald_session_info_t)`. -/
abbrev size : Nat := 140

def bytes (info : SessionInfo) : Bytes :=
  info.username.bytes ++ (info.containerId.bytes ++
    (int32Bytes info.pid ++ int64Bytes info.startTime))

def ofBytes (memory : Bytes) : SessionInfo where
  username := .load _ memory
  containerId := .load _ (memory.drop 64)
  pid := int32Of (memory.drop 128)
  startTime := int64Of (memory.drop 132)

@[simp] theorem length_bytes (info : SessionInfo) : info.bytes.length = size := by
  simp [bytes, maxStr, size]

@[simp] theorem ofBytes_bytes (info : SessionInfo) : ofBytes info.bytes = info := by
  cases info with
  | mk username containerId pid startTime =>
      have first : (SessionInfo.bytes ⟨username, containerId, pid, startTime⟩).drop 64 =
          containerId.bytes ++ (int32Bytes pid ++ int64Bytes startTime) :=
        List.drop_left' username.length_bytes
      have second : (SessionInfo.bytes ⟨username, containerId, pid, startTime⟩).drop 128 =
          int32Bytes pid ++ int64Bytes startTime := by
        have split : (SessionInfo.bytes ⟨username, containerId, pid, startTime⟩).drop 128 =
            ((SessionInfo.bytes ⟨username, containerId, pid, startTime⟩).drop 64).drop 64 := by
          rw [List.drop_drop]
        rw [split, first, List.drop_left' containerId.length_bytes]
      have third : (SessionInfo.bytes ⟨username, containerId, pid, startTime⟩).drop 132 =
          int64Bytes startTime := by
        have split : (SessionInfo.bytes ⟨username, containerId, pid, startTime⟩).drop 132 =
            ((SessionInfo.bytes ⟨username, containerId, pid, startTime⟩).drop 128).drop 4 := by
          rw [List.drop_drop]
        rw [split, second, List.drop_left' (length_int32Bytes pid)]
      have startEq := int64Of_bytes_append startTime []
      rw [List.append_nil] at startEq
      simp only [ofBytes, first, second, third, Buf.load_bytes_append, int32Of_bytes_append,
        startEq]
      simp [bytes]

end SessionInfo

end Caal
