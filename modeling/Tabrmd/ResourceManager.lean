import Tabrmd.Basic

/-!
# The resource manager's world

Every connection's `HandleMap`, the `SessionList`, the AccessBroker calls so far and the sink.
`access-broker.c` is not part of the source: `Env` gives each call's result from the calls
made so far, so a run may meet any TPM outcomes.
-/

namespace Tabrmd

/-- One AccessBroker call and what it returned. -/
inductive BrokerEvent
  /-- `access_broker_send_command` on a client's command. -/
  | sendCommand (command : Tpm2Command) (result : Except UInt32 TpmResponse)
  /-- `access_broker_send_command` on `tpm2_command_new_context_load` of a session context. -/
  | sendContextLoad (context : List UInt8) (result : Except UInt32 TpmResponse)
  /-- `access_broker_send_command` on `tpm2_command_new_context_save` of a session handle. -/
  | sendContextSave (handle : UInt32) (result : Except UInt32 TpmResponse)
  | contextLoad (context : TpmsContext) (result : Except UInt32 UInt32)
  | contextSaveflush (phandle : UInt32) (result : Except UInt32 TpmsContext)
  | contextFlush (handle : UInt32) (rc : UInt32)

/-- What the resource manager's behaviour depends on outside its own state. -/
structure Env where
  sendCommand : List BrokerEvent → Tpm2Command → Except UInt32 TpmResponse
  sendContextLoad : List BrokerEvent → List UInt8 → Except UInt32 TpmResponse
  sendContextSave : List BrokerEvent → UInt32 → Except UInt32 TpmResponse
  contextLoad : List BrokerEvent → TpmsContext → Except UInt32 UInt32
  contextSaveflush : List BrokerEvent → UInt32 → Except UInt32 TpmsContext
  contextFlush : List BrokerEvent → UInt32 → UInt32
  /-- The `savedHandle` an uninitialised `TPMS_CONTEXT` on the stack holds. -/
  stackSavedHandle : List BrokerEvent → Tpm2Command → UInt32

structure World where
  maps : Connection → HandleMap
  sessionList : SessionList
  log : List BrokerEvent
  sink : List SinkItem

namespace World

/-- Empty maps of capacity `maxTransients` and an empty session list. -/
def initial (maxTransients maxSessions : Nat) : World :=
  ⟨fun _ => HandleMap.new maxTransients, SessionList.new maxSessions, [], []⟩

def setMap (w : World) (connection : Connection) (map : HandleMap) : World :=
  { w with maps := Function.update w.maps connection map }

def setSessionList (w : World) (list : SessionList) : World :=
  { w with sessionList := list }

/-- `sink_enqueue`. -/
def sinkEnqueue (w : World) (item : SinkItem) : World :=
  { w with sink := w.sink ++ [item] }

def record (w : World) (event : BrokerEvent) : World :=
  { w with log := w.log ++ [event] }

@[simp] theorem setMap_maps (w : World) (c : Connection) (m : HandleMap) :
    (w.setMap c m).maps = Function.update w.maps c m := rfl
@[simp] theorem setMap_sessionList (w : World) (c : Connection) (m : HandleMap) :
    (w.setMap c m).sessionList = w.sessionList := rfl
@[simp] theorem setMap_log (w : World) (c : Connection) (m : HandleMap) :
    (w.setMap c m).log = w.log := rfl
@[simp] theorem setMap_sink (w : World) (c : Connection) (m : HandleMap) :
    (w.setMap c m).sink = w.sink := rfl
@[simp] theorem setSessionList_maps (w : World) (l : SessionList) :
    (w.setSessionList l).maps = w.maps := rfl
@[simp] theorem setSessionList_sessionList (w : World) (l : SessionList) :
    (w.setSessionList l).sessionList = l := rfl
@[simp] theorem setSessionList_log (w : World) (l : SessionList) :
    (w.setSessionList l).log = w.log := rfl
@[simp] theorem setSessionList_sink (w : World) (l : SessionList) :
    (w.setSessionList l).sink = w.sink := rfl
@[simp] theorem sinkEnqueue_maps (w : World) (i : SinkItem) :
    (w.sinkEnqueue i).maps = w.maps := rfl
@[simp] theorem sinkEnqueue_sessionList (w : World) (i : SinkItem) :
    (w.sinkEnqueue i).sessionList = w.sessionList := rfl
@[simp] theorem sinkEnqueue_log (w : World) (i : SinkItem) :
    (w.sinkEnqueue i).log = w.log := rfl
@[simp] theorem sinkEnqueue_sink (w : World) (i : SinkItem) :
    (w.sinkEnqueue i).sink = w.sink ++ [i] := rfl
@[simp] theorem record_maps (w : World) (e : BrokerEvent) : (w.record e).maps = w.maps := rfl
@[simp] theorem record_sessionList (w : World) (e : BrokerEvent) :
    (w.record e).sessionList = w.sessionList := rfl
@[simp] theorem record_log (w : World) (e : BrokerEvent) :
    (w.record e).log = w.log ++ [e] := rfl
@[simp] theorem record_sink (w : World) (e : BrokerEvent) : (w.record e).sink = w.sink := rfl

/-! ## AccessBroker calls -/

variable (E : Env)

def accessBrokerSendCommand (w : World) (command : Tpm2Command) :
    Except UInt32 TpmResponse × World :=
  let result := E.sendCommand w.log command
  (result, w.record (.sendCommand command result))

def accessBrokerSendContextLoad (w : World) (context : List UInt8) :
    Except UInt32 TpmResponse × World :=
  let result := E.sendContextLoad w.log context
  (result, w.record (.sendContextLoad context result))

def accessBrokerSendContextSave (w : World) (handle : UInt32) :
    Except UInt32 TpmResponse × World :=
  let result := E.sendContextSave w.log handle
  (result, w.record (.sendContextSave handle result))

def accessBrokerContextLoad (w : World) (context : TpmsContext) :
    Except UInt32 UInt32 × World :=
  let result := E.contextLoad w.log context
  (result, w.record (.contextLoad context result))

def accessBrokerContextSaveflush (w : World) (phandle : UInt32) :
    Except UInt32 TpmsContext × World :=
  let result := E.contextSaveflush w.log phandle
  (result, w.record (.contextSaveflush phandle result))

def accessBrokerContextFlush (w : World) (handle : UInt32) : UInt32 × World :=
  let rc := E.contextFlush w.log handle
  (rc, w.record (.contextFlush handle rc))

end World

/-- A run on a concrete input is checked by evaluating it: the result is `ok` and satisfies
`P`. -/
theorem exists_ok_of_decide {ε α : Type} {x : Except ε α} {P : α → Prop} [DecidablePred P]
    (h : (match x with | .ok a => decide (P a) | .error _ => false) = true) :
    ∃ a, x = .ok a ∧ P a := by
  cases x with
  | error e => simp at h
  | ok a => exact ⟨a, rfl, by simpa using h⟩

theorem exists_ok_of_isOk {ε α : Type} {x : Except ε α} (h : x.isOk = true) : ∃ a, x = .ok a := by
  cases x with
  | error e => cases h
  | ok a => exact ⟨a, rfl⟩

end Tabrmd

/-!
## What the TPM holds

The transients resident and sessions loaded in the TPM, computed from the AccessBroker calls
of a run as the spec's §8 invariants read them.
-/

namespace Tabrmd

/-- The transients the TPM holds after one more AccessBroker call. -/
def residentTransientsStep (resident : List UInt32) : BrokerEvent → List UInt32
  | .contextLoad _ (.ok phandle) => phandle :: resident
  | .contextSaveflush phandle (.ok _) => resident.filter (· != phandle)
  | .sendCommand command (.ok response) =>
    if response.code = tss2RcSuccess then
      let resident :=
        if command.attributes &&& tpmaCcFlushed = 0 then resident
        else resident.filter (· ∉ command.handles)
      match response.handle with
      | some handle => if handleType handle = tpm2HtTransient then handle :: resident
        else resident
      | none => resident
    else resident
  | _ => resident

/-- The transients resident in the TPM after the calls of `log`. -/
def residentTransients (log : List BrokerEvent) : List UInt32 :=
  log.foldl residentTransientsStep []

/-- The sessions the TPM holds after one more AccessBroker call. -/
def loadedSessionsStep (loaded : List UInt32) : BrokerEvent → List UInt32
  | .sendCommand command (.ok response) =>
    if response.code = tss2RcSuccess then
      let flushed := (command.auths.filter fun a =>
        a.sessionAttributes &&& tpmaSessionContinuesession = 0).map (·.sessionHandle)
      let loaded := loaded.filter (· ∉ flushed)
      let loaded :=
        if command.code = tpm2CcContextSave then loaded.filter (· != command.getHandle 0)
        else if command.code = tpm2CcFlushContext then
          match command.getFlushHandle with
          | .ok handle => loaded.filter (· != handle)
          | .error _ => loaded
        else loaded
      match response.handle with
      | some handle =>
        if (command.code = tpm2CcStartAuthSession ∨ command.code = tpm2CcContextLoad) ∧
            isSessionType handle then handle :: loaded
        else loaded
      | none => loaded
    else loaded
  | .sendContextLoad _ (.ok response) =>
    match response.handle with
    | some handle =>
      if response.code = tss2RcSuccess ∧ isSessionType handle then handle :: loaded else loaded
    | none => loaded
  | .sendContextSave handle (.ok response) =>
    if response.code = tss2RcSuccess then loaded.filter (· != handle) else loaded
  | .contextFlush handle rc => if rc = tss2RcSuccess then loaded.filter (· != handle) else loaded
  | _ => loaded

/-- The sessions loaded in the TPM after the calls of `log`. -/
def loadedSessions (log : List BrokerEvent) : List UInt32 :=
  log.foldl loadedSessionsStep []

/-- A `context_load` that succeeded with a transient handle, or a `context_saveflush` that
succeeded; any other call counts as well. -/
def BrokerEvent.transientCallOk : BrokerEvent → Bool
  | .contextLoad _ (.ok phandle) => handleType phandle == tpm2HtTransient
  | .contextLoad _ (.error _) => false
  | .contextSaveflush _ (.ok _) => true
  | .contextSaveflush _ (.error _) => false
  | _ => true

/-- A call the RM issues itself that succeeded; a client's command counts whatever its
outcome. -/
def BrokerEvent.rmCallOk : BrokerEvent → Bool
  | .sendCommand _ _ => true
  | .sendContextLoad _ (.ok response) => response.code == tss2RcSuccess
  | .sendContextSave _ (.ok response) => response.code == tss2RcSuccess
  | .contextLoad _ (.ok _) => true
  | .contextSaveflush _ (.ok _) => true
  | .contextFlush _ rc => rc == tss2RcSuccess
  | _ => false

/-- The command code of a command forwarded to the TPM. -/
def BrokerEvent.sentCode : BrokerEvent → Option UInt32
  | .sendCommand command _ => some command.code
  | _ => none

end Tabrmd

/-!
## `GetCapability` of transient handles

`vhandle_iterator_callback` through `get_cap_handles_response`.
-/

namespace Tabrmd

/-- A `TPMS_CAPABILITY_DATA` with the `TPM2_CAP_HANDLES` selector: `data.handles.count` and
the `TPM2_MAX_CAP_HANDLES` slots of `data.handles.handle`.  C stores `handle [count]` also at
an index past the array, into the memory after it; the model leaves the slots unchanged
there, and `count` still records the store. -/
structure TpmsCapabilityData where
  capability : UInt32
  count : Nat
  handle : List UInt32
  handle_length : handle.length = tpm2MaxCapHandles

namespace TpmsCapabilityData

/-- What `get_cap_handles` starts from: `TPM2_CAP_HANDLES`, no handle, and the zeroed slots of
the initialiser in `get_cap_handles_response`. -/
def empty : TpmsCapabilityData :=
  ⟨tpm2CapHandles, 0, List.replicate tpm2MaxCapHandles 0, List.length_replicate _ _⟩

/-- `cap_data->data.handles.handle [count] = vhandle; ++cap_data->data.handles.count`. -/
def store (capData : TpmsCapabilityData) (vhandle : UInt32) : TpmsCapabilityData :=
  ⟨capData.capability, capData.count + 1, capData.handle.set capData.count vhandle,
    (List.length_set _ _ _).trans capData.handle_length⟩

/-- The handles the data lists: `handle [0 .. count)`, as far as the array reaches. -/
def handles (capData : TpmsCapabilityData) : List UInt32 :=
  capData.handle.take capData.count

/-- What `build_cap_handles_response` reads as `handle [i]` for each `i < count`; past the
array C reads the memory after it, and the model reads 0. -/
def reads (capData : TpmsCapabilityData) : List UInt32 :=
  (List.range capData.count).map fun i => capData.handle.getD i 0

end TpmsCapabilityData

structure VhandleIteratorState where
  capData : TpmsCapabilityData
  maxCount : Nat
  moreData : Bool
  startHandle : UInt32

/-- `vhandle_iterator_callback`: skip a vhandle below the start, note that more data exists
once `max_count` handles are collected, and otherwise store the vhandle at index `count`. -/
def vhandleIteratorCallback (state : VhandleIteratorState) (vhandle : UInt32) :
    VhandleIteratorState :=
  if vhandle < state.startHandle then state
  else if ¬ state.capData.count < state.maxCount then
    { state with moreData := true }
  else { state with capData := state.capData.store vhandle }

/-- `handle_compare`. -/
def handleCompare (a b : UInt32) : Int :=
  if a < b then -1 else if a > b then 1 else 0

/-- `get_cap_handles`: returns the capability data and `more_data`. -/
def getCapHandles (map : HandleMap) (prop : UInt32) (count : UInt32) :
    TpmsCapabilityData × Bool :=
  let state : VhandleIteratorState := ⟨TpmsCapabilityData.empty, count.toNat, false, prop⟩
  let vhandleList := map.getKeys.mergeSort fun a b => handleCompare a b ≤ 0
  let state := vhandleList.foldl vhandleIteratorCallback state
  (state.capData, state.moreData)

@[simp] theorem vhandleIteratorCallback_startHandle (state : VhandleIteratorState)
    (vhandle : UInt32) :
    (vhandleIteratorCallback state vhandle).startHandle = state.startHandle := by
  unfold vhandleIteratorCallback
  split_ifs <;> rfl

@[simp] theorem vhandleIteratorCallback_maxCount (state : VhandleIteratorState)
    (vhandle : UInt32) : (vhandleIteratorCallback state vhandle).maxCount = state.maxCount := by
  unfold vhandleIteratorCallback
  split_ifs <;> rfl

@[simp] theorem vhandleIteratorCallback_capability (state : VhandleIteratorState)
    (vhandle : UInt32) :
    (vhandleIteratorCallback state vhandle).capData.capability = state.capData.capability := by
  unfold vhandleIteratorCallback
  split_ifs <;> rfl

/-! ## The response buffer -/

/-- Store `bytes` into `buffer` from `offset` on; a store past the end is dropped. -/
def storeBytes (buffer : List UInt8) (offset : Nat) (bytes : List UInt8) : List UInt8 :=
  bytes.enum.foldl (fun buf ib => buf.set (offset + ib.1) ib.2) buffer

/-- Modelled from the spec: `set_response_tag`, `set_response_size` and
`set_response_code` write the three header fields big-endian. -/
def setResponseTag (buffer : List UInt8) (tag : UInt16) : List UInt8 :=
  storeBytes buffer 0 (be16 tag)
def setResponseSize (buffer : List UInt8) (size : Nat) : List UInt8 :=
  storeBytes buffer 2 (be32 size.toUInt32)
def setResponseCode (buffer : List UInt8) (rc : UInt32) : List UInt8 :=
  storeBytes buffer 6 (be32 rc)

def yesNoOffset : Nat := tpmHeaderSize
def capOffset : Nat := tpmHeaderSize + 1
def handleCountOffset : Nat := capOffset + 4
def handleOffset : Nat := handleCountOffset + 4

/-- `CAP_RESP_SIZE`. -/
def capRespSize (capData : TpmsCapabilityData) : Nat :=
  tpmHeaderSize + 1 + 4 + 4 + capData.count * 4

/-- `build_cap_handles_response`: a zeroed buffer of `CAP_RESP_SIZE` bytes, then the header,
`YES_NO_SET`, `CAP_SET`, `HANDLE_COUNT_SET` and `HANDLE_SET (buf, i, handle [i])` for each
`i < count`. -/
def buildCapHandlesResponse (capData : TpmsCapabilityData) (moreData : Bool) : List UInt8 :=
  let buf := List.replicate (capRespSize capData) 0
  let buf := setResponseTag buf tpm2StNoSessions
  let buf := setResponseSize buf (capRespSize capData)
  let buf := setResponseCode buf tss2RcSuccess
  let buf := storeBytes buf yesNoOffset [if moreData then 1 else 0]
  let buf := storeBytes buf capOffset (be32 capData.capability)
  let buf := storeBytes buf handleCountOffset (be32 capData.count.toUInt32)
  capData.reads.enum.foldl (fun buf ih => storeBytes buf (handleOffset + 4 * ih.1) (be32 ih.2))
    buf

/-- `get_cap_handles_response` on the caller's map: answered only for `TPM2_CAP_HANDLES` with
a transient `prop`. -/
def getCapHandlesResponse (command : Tpm2Command) (map : HandleMap) : Option Tpm2Response :=
  let cap := command.getCap
  let prop := command.getProp
  let propCount := command.getPropCount
  if cap = tpm2CapHandles ∧ handleType prop = tpm2HtTransient then
    let capData := getCapHandles map prop propCount
    let respBuf := buildCapHandlesResponse capData.1 capData.2
    some (tpm2ResponseNew command.connection respBuf (capRespSize capData.1))
  else none

end Tabrmd

/-!
## Loading the contexts a command needs

`resource_manager_virt_to_phys` through `resource_manager_load_handles`.  A command in flight
is a `CommandState`: the world, the command as rewritten so far, and `transient_slist`.
-/

namespace Tabrmd

structure CommandState where
  world : World
  command : Tpm2Command
  transientSlist : List UInt32

variable (E : Env)

/-- `resource_manager_virt_to_phys`: load the entry's context; on success record the physical
handle in the entry and put it in the command at `handleNumber`. -/
def resourceManagerVirtToPhys (w : World) (command : Tpm2Command) (entry : HandleMapEntry)
    (handleNumber : Nat) : UInt32 × Tpm2Command × World :=
  match w.accessBrokerContextLoad E entry.context with
  | (.ok phandle, w) =>
    (tss2RcSuccess, command.setHandle phandle handleNumber,
      w.setMap command.connection
        ((w.maps command.connection).update entry.vhandle phandle id))
  | (.error rc, w) => (rc, command, w)

/-- `resource_manager_load_transient`. -/
def resourceManagerLoadTransient (cs : CommandState) (handle : UInt32) (handleIndex : Nat) :
    UInt32 × CommandState :=
  match (cs.world.maps cs.command.connection).vlookup handle with
  | none => (tss2RcSuccess, cs)
  | some entry =>
    let r := resourceManagerVirtToPhys E cs.world cs.command entry handleIndex
    if r.1 ≠ tss2RcSuccess then (r.1, ⟨r.2.2, r.2.1, cs.transientSlist⟩)
    else (r.1, ⟨r.2.2, r.2.1, entry.vhandle :: cs.transientSlist⟩)

/-- `resource_manager_load_session_from_handle`: load a session the calling connection owns
and the RM last saved; a failed load drops the session, and a session the command will
flush is dropped once loaded. -/
def resourceManagerLoadSessionFromHandle (w : World) (commandConn : Connection)
    (handle : UInt32) (willFlush : Bool) : UInt32 × World :=
  match w.sessionList.lookupHandle handle with
  | none => (tss2RcSuccess, w)
  | some entry =>
    if commandConn ≠ entry.connection then (tss2RcSuccess, w)
    else if entry.state ≠ .savedRm then (tss2RcSuccess, w)
    else
      match w.accessBrokerSendContextLoad E entry.context with
      | (.error rc, w) => (rc, w.setSessionList (w.sessionList.remove entry))
      | (.ok _, w) =>
        let list := w.sessionList.setState entry.id .loaded
        (tss2RcSuccess, w.setSessionList (if willFlush then list.remove entry else list))

/-- `resource_manager_load_auth_callback`: a session in the authorisation area is loaded,
to be flushed by the command unless `continueSession` is set. -/
def resourceManagerLoadAuthCallback (cs : CommandState) (auth : TpmsAuthCommand) :
    CommandState :=
  if isSessionType auth.sessionHandle then
    let willFlush := auth.sessionAttributes &&& tpmaSessionContinuesession == 0
    { cs with world := (resourceManagerLoadSessionFromHandle E cs.world cs.command.connection
        auth.sessionHandle willFlush).2 }
  else cs

/-- One pass of the loop of `resource_manager_load_handles`, on the handle at index `i` of the
handle area as it was read before the loop. -/
def loadHandlesBody (acc : UInt32 × CommandState) (ih : Nat × UInt32) :
    UInt32 × CommandState :=
  if handleType ih.2 = tpm2HtTransient then resourceManagerLoadTransient E acc.2 ih.2 ih.1
  else if isSessionType ih.2 then
    let r := resourceManagerLoadSessionFromHandle E acc.2.world acc.2.command.connection ih.2
      false
    (r.1, { acc.2 with world := r.2 })
  else acc

/-- `resource_manager_load_handles`; more handles than `TPM2_COMMAND_MAX_HANDLES` make
`tpm2_command_get_handles` fail, and the thread aborts. -/
def resourceManagerLoadHandles (cs : CommandState) : Except String (UInt32 × CommandState) :=
  if tpm2CommandMaxHandles < cs.command.handles.length then
    .error "Unable to get handles from command"
  else .ok (cs.command.handles.enum.foldl (loadHandlesBody E) (tss2RcSuccess, cs))

end Tabrmd

/-!
## Saving and flushing after a command

`resource_manager_flushsave_context` through `post_process_loaded_transients`.  The callbacks
of `session_list_foreach` change only the session they are given, so a pass is a fold over the
active sessions of the moment.
-/

namespace Tabrmd

variable (E : Env)

/-- `resource_manager_flushsave_context` on the entry the connection's map holds under
`vhandle`: a transient physical handle is saved and flushed, and zeroed on success. -/
def resourceManagerFlushsaveContext (w : World) (connection : Connection) (vhandle : UInt32) :
    World :=
  match (w.maps connection).vlookup vhandle with
  | none => w
  | some entry =>
    if handleType entry.phandle = tpm2HtTransient then
      match w.accessBrokerContextSaveflush E entry.phandle with
      | (.ok context, w) =>
        w.setMap connection ((w.maps connection).update vhandle 0 fun _ => context)
      | (.error _, w) => w
    else w

/-- `resource_manager_save_session_context`: a `LOADED` session is saved with a
`ContextSave` command and becomes `SAVED_RM`; if that fails it is flushed and dropped. -/
def resourceManagerSaveSessionContext (w : World) (entry : SessionEntry) : World :=
  if entry.state ≠ .loaded then w
  else
    match w.accessBrokerSendContextSave E entry.handle with
    | (.ok response, w) =>
      w.setSessionList (((w.sessionList.setContext entry.id response.body)).setState
        entry.id .savedRm)
    | (.error _, w) =>
      let w := (w.accessBrokerContextFlush E entry.handle).2
      w.setSessionList (w.sessionList.remove entry)

/-- The pass of `session_list_foreach` with `resource_manager_save_session_context`. -/
def saveSessionContexts (w : World) : World :=
  w.sessionList.sessionEntrySlist.foldl (resourceManagerSaveSessionContext E) w

/-- `remove_entry_from_handle_map`. -/
def removeEntryFromHandleMap (w : World) (connection : Connection) (vhandle : UInt32) :
    World :=
  if handleType vhandle = tpm2HtTransient then
    w.setMap connection ((w.maps connection).remove vhandle)
  else w

/-- `post_process_loaded_transients`. -/
def postProcessLoadedTransients (w : World) (transientSlist : List UInt32)
    (connection : Connection) (commandAttrs : UInt32) : World :=
  if commandAttrs &&& tpmaCcFlushed = 0 then
    transientSlist.foldl (fun w v => resourceManagerFlushsaveContext E w connection v) w
  else transientSlist.foldl (fun w v => removeEntryFromHandleMap w connection v) w

@[simp] theorem postProcessLoadedTransients_nil (w : World) (connection : Connection)
    (commandAttrs : UInt32) : postProcessLoadedTransients E w [] connection commandAttrs = w := by
  unfold postProcessLoadedTransients
  split <;> rfl

theorem postProcessLoadedTransients_cons (w : World) (v : UInt32) (L : List UInt32)
    (connection : Connection) (commandAttrs : UInt32) :
    postProcessLoadedTransients E w (v :: L) connection commandAttrs =
      postProcessLoadedTransients E
        (if commandAttrs &&& tpmaCcFlushed = 0 then
          resourceManagerFlushsaveContext E w connection v
        else removeEntryFromHandleMap w connection v) L connection commandAttrs := by
  unfold postProcessLoadedTransients
  split <;> simp_all

end Tabrmd

/-!
## Quotas and the virtualised commands

A handler returns the response the resource manager answers with, or `none` to let the
command go on to the TPM.
-/

namespace Tabrmd

/-- `resource_manager_save_context_session`: a session the caller owns becomes
`SAVED_CLIENT` and its context is returned. -/
def resourceManagerSaveContextSession (w : World) (command : Tpm2Command) :
    Option Tpm2Response × World :=
  let handle := command.getHandle 0
  match w.sessionList.lookupHandle handle with
  | none => (none, w)
  | some entry =>
    if command.connection ≠ entry.connection then (none, w)
    else
      (some (tpm2ResponseNewContextSave command.connection entry),
        w.setSessionList (w.sessionList.setState entry.id .savedClient))

/-- `resource_manager_save_context`. -/
def resourceManagerSaveContext (w : World) (command : Tpm2Command) :
    Option Tpm2Response × World :=
  if isSessionType (command.getHandle 0) then resourceManagerSaveContextSession w command
  else (none, w)

/-- `resource_manager_load_context_session`: a session whose context matches the command's
body comes back `SAVED_RM` to its owner, or to a caller that claims it from the abandoned
sessions. -/
def resourceManagerLoadContextSession (w : World) (command : Tpm2Command) :
    Option Tpm2Response × World :=
  match w.sessionList.lookupContextClient command.body with
  | none => (none, w)
  | some entry =>
    let connCmd := command.connection
    let claimed :=
      if connCmd ≠ entry.connection then w.sessionList.claim entry connCmd
      else some w.sessionList
    match claimed with
    | none => (none, w)
    | some list =>
      (some (tpm2ResponseNewContextLoad connCmd entry),
        w.setSessionList (list.setState entry.id .savedRm))

variable (E : Env)

/-- `resource_manager_load_context`.  The result of `Tss2_MU_TPMS_CONTEXT_Unmarshal` is not
checked: when it fails, the code reads `savedHandle` from the uninitialised `tpms_context`. -/
def resourceManagerLoadContext (w : World) (command : Tpm2Command) :
    Option Tpm2Response × World :=
  let savedHandle :=
    match tss2MuTpmsContextUnmarshal command.body with
    | .ok context => context.savedHandle
    | .error _ => E.stackSavedHandle w.log command
  if isSessionType savedHandle then resourceManagerLoadContextSession w command
  else (none, w)

/-- `resource_manager_flush_context`: a transient is flushed from the caller's map without
the TPM; a session is dropped from the session list and the command goes on to the TPM. -/
def resourceManagerFlushContext (w : World) (command : Tpm2Command) :
    Option Tpm2Response × World :=
  if command.code ≠ tpm2CcFlushContext then (none, w)
  else
    match command.getFlushHandle with
    | .error rc => (some (tpm2ResponseNewRc command.connection rc), w)
    | .ok handle =>
      if handleType handle = tpm2HtTransient then
        let map := w.maps command.connection
        match map.vlookup handle with
        | some _ =>
          (some (tpm2ResponseNewRc command.connection tss2RcSuccess),
            w.setMap command.connection (map.remove handle))
        | none =>
          (some (tpm2ResponseNewRc command.connection
            (rmRc (tpm2RcHandle + tpm2RcP + tpm2Rc1))), w)
      else if isSessionType handle then
        (none, w.setSessionList (w.sessionList.removeHandle handle))
      else (none, w)

/-- `resource_manager_quota_check`. -/
def resourceManagerQuotaCheck (w : World) (command : Tpm2Command) : UInt32 :=
  if command.code = tpm2CcCreatePrimary ∨ command.code = tpm2CcLoad ∨
      command.code = tpm2CcLoadExternal then
    if (w.maps command.connection).isFull then tss2ResmgrRcObjectMemory else tss2RcSuccess
  else if command.code = tpm2CcStartAuthSession then
    if w.sessionList.isFull command.connection then tss2ResmgrRcSessionMemory
    else tss2RcSuccess
  else tss2RcSuccess

/-- `command_special_processing`. -/
def commandSpecialProcessing (w : World) (command : Tpm2Command) :
    Option Tpm2Response × World :=
  if command.code = tpm2CcFlushContext then resourceManagerFlushContext w command
  else if command.code = tpm2CcContextSave then resourceManagerSaveContext w command
  else if command.code = tpm2CcContextLoad then resourceManagerLoadContext E w command
  else if command.code = tpm2CcGetCapability then
    (getCapHandlesResponse command (w.maps command.connection), w)
  else (none, w)

end Tabrmd

/-!
## Processing one command

`create_context_mapping_transient` through `resource_manager_process_tpm2_command`.  A
rolled-over vhandle counter is fatal (`g_error`): the model returns an error that ends the
run.
-/

namespace Tabrmd

/-- `create_context_mapping_transient`: a new entry under a fresh vhandle, for the physical
handle of the response, is put on `transient_slist` (twice, as the source prepends it twice),
and the response gets the vhandle. -/
def createContextMappingTransient (w : World) (response : Tpm2Response)
    (loadedTransientSlist : List UInt32) :
    Except String (Tpm2Response × List UInt32 × World) :=
  let phandle := response.handle.getD 0
  let connection := response.connection
  let next := (w.maps connection).nextVhandle
  if next.1 = 0 then .error "vhandle rolled over!"
  else
    let handleEntry := handleMapEntryNew phandle next.1
    .ok (response.setHandle next.1,
      handleEntry.vhandle :: handleEntry.vhandle :: loadedTransientSlist,
      w.setMap connection (next.2.insert handleEntry))

/-- `create_context_mapping_session`: a session handle the list does not track starts a new
`LOADED` session owned by the response's connection. -/
def createContextMappingSession (w : World) (response : Tpm2Response) (handle : UInt32) :
    World :=
  match w.sessionList.lookupHandle handle with
  | some _ => w
  | none => w.setSessionList (w.sessionList.insert response.connection handle .loaded)

@[simp] theorem createContextMappingSession_maps (w : World) (response : Tpm2Response)
    (handle : UInt32) : (createContextMappingSession w response handle).maps = w.maps := by
  unfold createContextMappingSession
  split <;> rfl

@[simp] theorem createContextMappingSession_log (w : World) (response : Tpm2Response)
    (handle : UInt32) : (createContextMappingSession w response handle).log = w.log := by
  unfold createContextMappingSession
  split <;> rfl

@[simp] theorem createContextMappingSession_sink (w : World) (response : Tpm2Response)
    (handle : UInt32) : (createContextMappingSession w response handle).sink = w.sink := by
  unfold createContextMappingSession
  split <;> rfl

/-- `resource_manager_create_context_mapping`. -/
def resourceManagerCreateContextMapping (w : World) (response : Tpm2Response)
    (loadedTransientSlist : List UInt32) :
    Except String (Tpm2Response × List UInt32 × World) :=
  match response.handle with
  | none => .ok (response, loadedTransientSlist, w)
  | some handle =>
    if handleType handle = tpm2HtTransient then
      createContextMappingTransient w response loadedTransientSlist
    else if isSessionType handle then
      .ok (response, loadedTransientSlist, createContextMappingSession w response handle)
    else .ok (response, loadedTransientSlist, w)

variable (E : Env)

/-- The steps from `send_response` on: enqueue the response, save the sessions, then save or
drop the loaded transients. -/
def sendResponse (w : World) (response : Tpm2Response) (transientSlist : List UInt32)
    (connection : Connection) (commandAttrs : UInt32) : World :=
  let w := w.sinkEnqueue (.response response)
  let w := saveSessionContexts E w
  postProcessLoadedTransients E w transientSlist connection commandAttrs

/-- Load the contexts of the command's handle and authorisation areas. -/
def loadContexts (cs : CommandState) : Except String CommandState :=
  let loaded :=
    if 0 < cs.command.handles.length then (resourceManagerLoadHandles E cs).map (·.2)
    else .ok cs
  loaded.map fun cs =>
    if cs.command.auths ≠ [] then cs.command.auths.foldl (resourceManagerLoadAuthCallback E) cs
    else cs

/-- `resource_manager_process_tpm2_command`. -/
def resourceManagerProcessTpm2Command (w : World) (command : Tpm2Command) :
    Except String World :=
  let commandAttrs := command.attributes
  let connection := command.connection
  let rc := resourceManagerQuotaCheck w command
  if rc ≠ tss2RcSuccess then
    .ok (sendResponse E w (tpm2ResponseNewRc connection rc) [] connection commandAttrs)
  else
    let special := commandSpecialProcessing E w command
    match special.1 with
    | some response => .ok (sendResponse E special.2 response [] connection commandAttrs)
    | none =>
      match loadContexts E ⟨special.2, command, []⟩ with
      | .error e => .error e
      | .ok cs =>
        let sent := cs.world.accessBrokerSendCommand E cs.command
        let response : Tpm2Response :=
          match sent.1 with
          | .ok tpm => ⟨tpm, connection⟩
          | .error rc => tpm2ResponseNewRc connection rc
        match resourceManagerCreateContextMapping sent.2 response cs.transientSlist with
        | .error e => .error e
        | .ok mapped =>
          .ok (sendResponse E mapped.2.2 mapped.1 mapped.2.1 connection commandAttrs)

end Tabrmd

/-!
## Connection close and the thread

The thread's queue is the list of objects it will dequeue; a `none` is the NULL that ends it,
and it stops after `CHECK_CANCEL`.
-/

namespace Tabrmd

variable (E : Env)

/-- `flush_session_callback`: flush an evicted abandoned session, reporting success. -/
def flushSessionCallback (w : World) (entry : SessionEntry) : Bool × World :=
  let r := w.accessBrokerContextFlush E entry.handle
  (r.1 = tss2RcSuccess, r.2)

/-- `connection_close_session_callback` for one session: a session the closing connection
exported is abandoned, pruning the oldest abandoned sessions, and one the RM saved is flushed
and dropped.  Any other state is fatal. -/
def connectionCloseSessionCallback (connection : Connection) (w : World)
    (sessionEntry : SessionEntry) : Except String World :=
  if sessionEntry.connection ≠ connection then .ok w
  else
    let handle := sessionEntry.handle
    match sessionEntry.state with
    | .savedClient =>
      let pruned := (w.sessionList.abandonHandle connection handle).pruneAbandoned
      .ok (pruned.1.foldl (fun w e => (flushSessionCallback E w e).2)
        (w.setSessionList pruned.2))
    | .savedRm =>
      let w := (w.accessBrokerContextFlush E handle).2
      .ok (w.setSessionList (w.sessionList.remove sessionEntry))
    | state =>
      .error ("Connection closed with session in unexpected state: " ++
        sessionEntryStateToStr state)

/-- `resource_manager_remove_connection`: the callback over the sessions active when the
connection closed. -/
def resourceManagerRemoveConnection (w : World) (connection : Connection) :
    Except String World :=
  w.sessionList.sessionEntrySlist.foldlM (connectionCloseSessionCallback E connection) w

/-- `resource_manager_process_control`: `false` ends the thread. -/
def resourceManagerProcessControl (w : World) (msg : ControlMessage) :
    Except String (Bool × World) :=
  match msg with
  | .checkCancel => .ok (false, w.sinkEnqueue (.control msg))
  | .connectionRemoved conn =>
    (resourceManagerRemoveConnection E w conn).map fun w => (true, w.sinkEnqueue (.control msg))
  | .unknown _ => .ok (true, w)

/-- `resource_manager_thread` over the objects it dequeues. -/
def resourceManagerThread : List (Option QueueItem) → World → Except String World
  | [], w => .ok w
  | none :: _, w => .ok w
  | some (.command command) :: rest, w =>
    match resourceManagerProcessTpm2Command E w command with
    | .error e => .error e
    | .ok w => resourceManagerThread rest w
  | some (.control msg) :: rest, w =>
    match resourceManagerProcessControl E w msg with
    | .error e => .error e
    | .ok r => if r.1 then resourceManagerThread rest r.2 else .ok r.2
  | some .other :: rest, w => resourceManagerThread rest w

end Tabrmd
