import Mathlib.Data.List.Nodup
import Mathlib.Tactic.Ring

/-!
# TPM2 constants and handle types

The handle types, command codes, attribute bits and response codes the source names, with
`RM_RC` as `tabrmd.h` builds it.  The resource manager reads only the high byte of a handle
(`handle >> TPM2_HR_SHIFT`); the byte helpers give the TPM's big-endian encodings.
-/

namespace Tabrmd

/-! ## Handles -/

def tpm2HrShift : UInt32 := 24

def tpm2HtTransient : UInt32 := 0x80
def tpm2HtHmacSession : UInt32 := 0x02
def tpm2HtPolicySession : UInt32 := 0x03

/-- `handle >> TPM2_HR_SHIFT`: the handle type in the high byte. -/
def handleType (handle : UInt32) : UInt32 :=
  handle >>> tpm2HrShift

/-- The handle types the resource manager treats as sessions. -/
def isSessionType (handle : UInt32) : Bool :=
  handleType handle == tpm2HtHmacSession || handleType handle == tpm2HtPolicySession

theorem toNat_shiftRight_of_lt (x n : UInt32) {k : Nat} (hk : n.toNat = k) (h : k < 32) :
    (x >>> n).toNat = x.toNat / 2 ^ k := by
  subst hk
  show (UInt32.shiftRight x n).toBitVec.toNat = _
  simp [UInt32.shiftRight, UInt32.mod, BitVec.toNat_ushiftRight, Nat.shiftRight_eq_div_pow,
    BitVec.toNat_umod]
  exact congrArg (x.toNat / 2 ^ ·) (Nat.mod_eq_of_lt h)

@[simp] theorem toUInt32_toNat (x : UInt32) : x.toNat.toUInt32 = x :=
  UInt32.eq_of_val_eq (Fin.ext (UInt32.toNat_ofNat_of_lt x.val.isLt))

theorem handleType_toNat (handle : UInt32) :
    (handleType handle).toNat = handle.toNat / 2 ^ 24 :=
  toNat_shiftRight_of_lt handle 24 rfl (by decide)

theorem handleType_eq_iff (handle t : UInt32) :
    handleType handle = t ↔ handle.toNat / 2 ^ 24 = t.toNat := by
  rw [← handleType_toNat]
  exact ⟨fun h => h ▸ rfl, fun h => UInt32.eq_of_val_eq (Fin.ext h)⟩

/-! ## Command codes, attributes and response codes -/

def tpm2CcCreatePrimary : UInt32 := 0x131
def tpm2CcLoad : UInt32 := 0x157
def tpm2CcLoadExternal : UInt32 := 0x167
def tpm2CcStartAuthSession : UInt32 := 0x176
def tpm2CcFlushContext : UInt32 := 0x165
def tpm2CcContextSave : UInt32 := 0x162
def tpm2CcContextLoad : UInt32 := 0x161
def tpm2CcGetCapability : UInt32 := 0x17A

/-- `TPMA_CC_FLUSHED`, bit 24 of the command attributes. -/
def tpmaCcFlushed : UInt32 := 0x01000000

/-- `TPMA_SESSION_CONTINUESESSION`, bit 0 of the session attributes. -/
def tpmaSessionContinuesession : UInt8 := 0x01

def tpm2CapHandles : UInt32 := 0x00000001
def tpm2StNoSessions : UInt16 := 0x8001

/-- `TPM2_MAX_CAP_HANDLES`: the length of `TPML_HANDLE.handle`. -/
def tpm2MaxCapHandles : Nat := 254

/-- `TPM2_COMMAND_MAX_HANDLES`: the room `resource_manager_load_handles` gives the
handle area. -/
def tpm2CommandMaxHandles : Nat := 3

def tpmHeaderSize : Nat := 10

def tss2RcSuccess : UInt32 := 0

def tss2ResmgrRcLayer : UInt32 := 0xB0000

/-- `RM_RC (rc)`: a response code of the resource-manager layer. -/
def rmRc (rc : UInt32) : UInt32 := tss2ResmgrRcLayer + rc

def tpm2RcHandle : UInt32 := 0x08B
def tpm2RcP : UInt32 := 0x040
def tpm2Rc1 : UInt32 := 0x100
def tpm2RcObjectMemory : UInt32 := 0x902
def tpm2RcSessionMemory : UInt32 := 0x903
def tss2BaseRcInsufficientBuffer : UInt32 := 6

def tss2ResmgrRcObjectMemory : UInt32 := rmRc tpm2RcObjectMemory
def tss2ResmgrRcSessionMemory : UInt32 := rmRc tpm2RcSessionMemory

/-! ## Big-endian encodings -/

def be16 (x : UInt16) : List UInt8 :=
  [(x >>> 8).toUInt8, x.toUInt8]

def be32 (x : UInt32) : List UInt8 :=
  [(x >>> 24).toUInt8, (x >>> 16).toUInt8, (x >>> 8).toUInt8, x.toUInt8]

def be64 (x : UInt64) : List UInt8 :=
  be32 (x >>> 32).toUInt32 ++ be32 x.toUInt32

/-- The big-endian value of a list of bytes. -/
def ofBe (bytes : List UInt8) : Nat :=
  bytes.foldl (fun acc b => acc * 256 + b.toNat) 0

@[simp] theorem be16_length (x : UInt16) : (be16 x).length = 2 := rfl
@[simp] theorem be32_length (x : UInt32) : (be32 x).length = 4 := rfl

@[simp] theorem ofBe_be16 (x : UInt16) : ofBe (be16 x) = x.toNat := by
  have hx : x.toNat < 2 ^ 16 := x.val.isLt
  have h8 : (x >>> 8).toNat = x.toNat / 2 ^ 8 := by
    show (UInt16.shiftRight x 8).toBitVec.toNat = _
    simp [UInt16.shiftRight, UInt16.mod, BitVec.toNat_ushiftRight, Nat.shiftRight_eq_div_pow]
    rfl
  have t : ∀ y : UInt16, y.toUInt8.toNat = y.toNat % 256 := fun _ => rfl
  simp only [be16, ofBe, List.foldl, t, h8]
  omega

@[simp] theorem ofBe_be32 (x : UInt32) : ofBe (be32 x) = x.toNat := by
  have hx : x.toNat < 2 ^ 32 := x.val.isLt
  have t : ∀ y : UInt32, y.toUInt8.toNat = y.toNat % 256 := fun _ => rfl
  simp only [be32, ofBe, List.foldl, t, @toNat_shiftRight_of_lt x 24 24 rfl (by decide),
    @toNat_shiftRight_of_lt x 16 16 rfl (by decide), @toNat_shiftRight_of_lt x 8 8 rfl (by decide)]
  omega

/-- Read an `n`-byte big-endian number from the front of `bytes`, returning the rest. -/
def readBe (n : Nat) (bytes : List UInt8) : Option (Nat × List UInt8) :=
  if n ≤ bytes.length then some (ofBe (bytes.take n), bytes.drop n) else none

end Tabrmd

/-!
## HandleMap

`handle-map.c` is not part of the source; what `resource-manager.c` calls is modelled from the
spec (§3, §4.3).  A map holds at most one entry per vhandle, as a field of the structure.
-/

namespace Tabrmd

/-- A `TPMS_CONTEXT`: what the AccessBroker saves and loads, opaque to the resource manager. -/
structure TpmsContext where
  sequence : UInt64
  savedHandle : UInt32
  hierarchy : UInt32
  contextBlob : List UInt8
deriving DecidableEq, Repr

/-- The zeroed context of a fresh entry. -/
def TpmsContext.empty : TpmsContext := ⟨0, 0, 0, []⟩

structure HandleMapEntry where
  phandle : UInt32
  vhandle : UInt32
  context : TpmsContext
deriving DecidableEq, Repr

/-- Modelled from the spec: `handle_map_entry_new (phandle, vhandle)`, with an empty saved
context. -/
def handleMapEntryNew (phandle vhandle : UInt32) : HandleMapEntry :=
  ⟨phandle, vhandle, TpmsContext.empty⟩

structure HandleMap where
  entries : List HandleMapEntry
  /-- The number of vhandles handed out so far. -/
  handleCount : Nat
  maxEntries : Nat
  nodup : (entries.map HandleMapEntry.vhandle).Nodup

namespace HandleMap

/-- Modelled from the spec: an empty map of the given capacity. -/
def new (maxEntries : Nat) : HandleMap := ⟨[], 0, maxEntries, List.nodup_nil⟩

/-- Modelled from the spec: `handle_map_vlookup`. -/
def vlookup (map : HandleMap) (vhandle : UInt32) : Option HandleMapEntry :=
  map.entries.find? (·.vhandle == vhandle)

/-- Modelled from the spec: `handle_map_remove`. -/
def remove (map : HandleMap) (vhandle : UInt32) : HandleMap where
  entries := map.entries.filter (·.vhandle != vhandle)
  handleCount := map.handleCount
  maxEntries := map.maxEntries
  nodup := map.nodup.sublist ((List.filter_sublist _).map _)

/-- Modelled from the spec: `handle_map_insert (map, vhandle, entry)` for an entry built
for `vhandle`; an entry already stored under it is replaced. -/
def insert (map : HandleMap) (entry : HandleMapEntry) : HandleMap where
  entries := entry :: map.entries.filter (·.vhandle != entry.vhandle)
  handleCount := map.handleCount
  maxEntries := map.maxEntries
  nodup := by
    refine List.nodup_cons.mpr ⟨?_, (map.remove entry.vhandle).nodup⟩
    simp

/-- Modelled from the spec: `handle_map_is_full`. -/
def isFull (map : HandleMap) : Bool :=
  map.maxEntries ≤ map.entries.length

/-- Modelled from the spec: `handle_map_get_keys`. -/
def getKeys (map : HandleMap) : List UInt32 :=
  map.entries.map HandleMapEntry.vhandle

/-- Rewrite the entry stored under `vhandle`: the store behind
`handle_map_entry_set_phandle` and the context the AccessBroker saves into an entry. -/
def update (map : HandleMap) (vhandle : UInt32) (phandle : UInt32)
    (context : TpmsContext → TpmsContext) : HandleMap where
  entries := map.entries.map fun e =>
    if e.vhandle = vhandle then { e with phandle := phandle, context := context e.context }
    else e
  handleCount := map.handleCount
  maxEntries := map.maxEntries
  nodup := by
    rw [List.map_map]
    convert map.nodup using 2
    funext e
    by_cases h : e.vhandle = vhandle <;> simp [h]

/-- The vhandle with counter value `count`: type `TPM2_HT_TRANSIENT` in the high byte. -/
def vhandleOf (count : Nat) : UInt32 :=
  tpm2HtTransient <<< tpm2HrShift + count.toUInt32

/-- The largest counter value that still fits below the handle type. -/
def maxHandleCount : Nat := 0xFFFFFF

/-- Modelled from the spec: `handle_map_next_vhandle` advances the connection's counter and
returns the next vhandle, or 0 once the counter would leave the 24 bits below the handle
type. -/
def nextVhandle (map : HandleMap) : UInt32 × HandleMap :=
  if map.handleCount < maxHandleCount then
    (vhandleOf (map.handleCount + 1), { map with handleCount := map.handleCount + 1 })
  else (0, map)

/-! ## Lemmas -/

theorem vlookup_eq_some {map : HandleMap} {vhandle : UInt32} {entry : HandleMapEntry}
    (h : map.vlookup vhandle = some entry) : entry ∈ map.entries ∧ entry.vhandle = vhandle :=
  ⟨List.mem_of_find?_eq_some h, by simpa using List.find?_some h⟩

theorem vlookup_eq_none {map : HandleMap} {vhandle : UInt32}
    (h : map.vlookup vhandle = none) : ∀ e ∈ map.entries, e.vhandle ≠ vhandle := by
  intro e he hv
  simpa [hv] using List.find?_eq_none.mp h e he

@[simp] theorem mem_remove {map : HandleMap} {vhandle : UInt32} {e : HandleMapEntry} :
    e ∈ (map.remove vhandle).entries ↔ e ∈ map.entries ∧ e.vhandle ≠ vhandle := by
  simp [remove]

theorem remove_of_vlookup_none {map : HandleMap} {vhandle : UInt32}
    (h : map.vlookup vhandle = none) : map.remove vhandle = map := by
  have hf : map.entries.filter (·.vhandle != vhandle) = map.entries :=
    List.filter_eq_self.mpr fun e he => bne_iff_ne.mpr (vlookup_eq_none h e he)
  cases map
  simpa [remove] using hf

@[simp] theorem mem_insert {map : HandleMap} {entry e : HandleMapEntry} :
    e ∈ (map.insert entry).entries ↔
      e = entry ∨ (e ∈ map.entries ∧ e.vhandle ≠ entry.vhandle) := by
  simp [insert]

theorem mem_update {map : HandleMap} {vhandle phandle : UInt32}
    {context : TpmsContext → TpmsContext} {e : HandleMapEntry} :
    e ∈ (map.update vhandle phandle context).entries ↔ ∃ y ∈ map.entries,
      e = if y.vhandle = vhandle then { y with phandle := phandle, context := context y.context }
        else y := by
  simp [update, eq_comm]

theorem vlookup_update (map : HandleMap) (vhandle phandle v : UInt32)
    (context : TpmsContext → TpmsContext) :
    (map.update vhandle phandle context).vlookup v = (map.vlookup v).map fun e =>
      if e.vhandle = vhandle then { e with phandle := phandle, context := context e.context }
      else e := by
  unfold vlookup update
  rw [List.find?_map]
  congr 2
  funext e
  by_cases h : e.vhandle = vhandle <;> simp [h]

theorem eq_of_vhandle_eq {map : HandleMap} {e e' : HandleMapEntry} (he : e ∈ map.entries)
    (he' : e' ∈ map.entries) (h : e.vhandle = e'.vhandle) : e = e' :=
  List.inj_on_of_nodup_map map.nodup he he' h

@[simp] theorem update_keys (map : HandleMap) (v p : UInt32) (f : TpmsContext → TpmsContext) :
    (map.update v p f).entries.map HandleMapEntry.vhandle =
      map.entries.map HandleMapEntry.vhandle := by
  simp only [update, List.map_map]
  congr 1
  funext e
  by_cases h : e.vhandle = v <;> simp [h]

theorem insert_length {map : HandleMap} {entry : HandleMapEntry}
    (h : ∀ e ∈ map.entries, e.vhandle ≠ entry.vhandle) :
    (map.insert entry).entries.length = map.entries.length + 1 := by
  have hf : map.entries.filter (·.vhandle != entry.vhandle) = map.entries :=
    List.filter_eq_self.mpr fun e he => bne_iff_ne.mpr (h e he)
  simp only [insert, List.length_cons, hf]

@[simp] theorem remove_handleCount (map : HandleMap) (vhandle : UInt32) :
    (map.remove vhandle).handleCount = map.handleCount := rfl
@[simp] theorem insert_handleCount (map : HandleMap) (entry : HandleMapEntry) :
    (map.insert entry).handleCount = map.handleCount := rfl
@[simp] theorem update_handleCount (map : HandleMap) (v p : UInt32) (f) :
    (map.update v p f).handleCount = map.handleCount := rfl
@[simp] theorem remove_maxEntries (map : HandleMap) (vhandle : UInt32) :
    (map.remove vhandle).maxEntries = map.maxEntries := rfl
@[simp] theorem insert_maxEntries (map : HandleMap) (entry : HandleMapEntry) :
    (map.insert entry).maxEntries = map.maxEntries := rfl
@[simp] theorem update_maxEntries (map : HandleMap) (v p : UInt32) (f) :
    (map.update v p f).maxEntries = map.maxEntries := rfl

theorem toNat_vhandleOf {count : Nat} (h : count ≤ maxHandleCount) :
    (vhandleOf count).toNat = 0x80000000 + count := by
  have hc : count.toUInt32.toNat = count := by
    simp only [maxHandleCount] at h
    exact UInt32.toNat_ofNat_of_lt (by simp [UInt32.size]; omega)
  simp only [vhandleOf, UInt32.toNat, UInt32.add_def, BitVec.toNat_add] at hc ⊢
  rw [hc]
  show (2147483648 + count) % 2 ^ 32 = _
  simp only [maxHandleCount] at h
  omega

theorem handleType_vhandleOf {count : Nat} (h : count ≤ maxHandleCount) :
    handleType (vhandleOf count) = tpm2HtTransient := by
  rw [handleType_eq_iff, toNat_vhandleOf h]
  simp only [maxHandleCount] at h
  show _ = 128
  omega

theorem not_vhandleOf_lt {count : Nat} (h : count ≤ maxHandleCount) :
    ¬ vhandleOf count < 0x80000000 := by
  rw [UInt32.lt_def, BitVec.lt_def]
  show ¬ (vhandleOf count).toNat < 2147483648
  rw [toNat_vhandleOf h]
  omega

theorem vhandleOf_injective {a b : Nat} (ha : a ≤ maxHandleCount) (hb : b ≤ maxHandleCount)
    (h : vhandleOf a = vhandleOf b) : a = b := by
  have := congrArg UInt32.toNat h
  rw [toNat_vhandleOf ha, toNat_vhandleOf hb] at this
  omega

theorem nextVhandle_cases (map : HandleMap) :
    (map.nextVhandle = (0, map)) ∨
      (map.handleCount < maxHandleCount ∧
        map.nextVhandle = (vhandleOf (map.handleCount + 1),
          { map with handleCount := map.handleCount + 1 })) := by
  unfold nextVhandle
  split
  · exact Or.inr ⟨‹_›, rfl⟩
  · exact Or.inl rfl

theorem nextVhandle_fst_ne_zero_of_lt {map : HandleMap} (h : map.handleCount < maxHandleCount) :
    map.nextVhandle.1 ≠ 0 := by
  intro h0
  have := toNat_vhandleOf (Nat.succ_le_of_lt h)
  simp only [nextVhandle, if_pos h] at h0
  rw [h0, UInt32.toNat_zero] at this
  omega

theorem nextVhandle_of_le {map : HandleMap} (h : maxHandleCount ≤ map.handleCount) :
    map.nextVhandle = (0, map) := by
  simp [nextVhandle, Nat.not_lt.mpr h]

@[simp] theorem nextVhandle_snd_entries (map : HandleMap) :
    map.nextVhandle.2.entries = map.entries := by
  unfold nextVhandle
  split <;> rfl

theorem nextVhandle_fst_ne_zero {map : HandleMap} (h : map.nextVhandle.1 ≠ 0) :
    map.handleCount < maxHandleCount ∧
      map.nextVhandle = (vhandleOf (map.handleCount + 1),
        { map with handleCount := map.handleCount + 1 }) := by
  rcases nextVhandle_cases map with h0 | h1
  · exact absurd (by rw [h0]) h
  · exact h1

end HandleMap

end Tabrmd

/-!
## SessionList

`session-list.c` and `session-entry.c` are not part of the source; what `resource-manager.c`
calls is modelled from the spec (§3, §4.4, §4.6).  `id` stands for the identity of the
reference-counted `SessionEntry`; the structure carries that identities are distinct.
-/

namespace Tabrmd

/-- A client connection; the resource manager only compares identities. -/
structure Connection where
  id : Nat
deriving DecidableEq, Repr

inductive SessionEntryStateEnum
  | savedRm
  | savedClient
  | savedClientClosed
  | loaded
deriving DecidableEq, Repr

/-- Modelled from the spec: `session_entry_state_to_str`. -/
def sessionEntryStateToStr : SessionEntryStateEnum → String
  | .savedRm => "SESSION_ENTRY_SAVED_RM"
  | .savedClient => "SESSION_ENTRY_SAVED_CLIENT"
  | .savedClientClosed => "SESSION_ENTRY_SAVED_CLIENT_CLOSED"
  | .loaded => "SESSION_ENTRY_LOADED"

structure SessionEntry where
  id : Nat
  connection : Connection
  context : List UInt8
  handle : UInt32
  state : SessionEntryStateEnum
deriving DecidableEq, Repr

structure SessionList where
  sessionEntrySlist : List SessionEntry
  abandonedQueue : List SessionEntry
  maxPerConnection : Nat
  nextId : Nat
  nodup : ((sessionEntrySlist ++ abandonedQueue).map SessionEntry.id).Nodup
  id_lt : ∀ e ∈ sessionEntrySlist ++ abandonedQueue, e.id < nextId

/-- `MAX_ABANDONED`: the length of the abandoned FIFO. -/
def maxAbandoned : Nat := 4

namespace SessionList

/-- Modelled from the spec: an empty list with the per-connection cap. -/
def new (maxPerConnection : Nat) : SessionList :=
  ⟨[], [], maxPerConnection, 0, List.nodup_nil, by simp⟩

/-- Modelled from the spec: `session_list_lookup_handle`, over the active sessions. -/
def lookupHandle (list : SessionList) (handle : UInt32) : Option SessionEntry :=
  list.sessionEntrySlist.find? (·.handle == handle)

/-- Modelled from the spec: `session_list_lookup_context_client`, the first session of the
list, active or abandoned, whose context is the presented bytes. -/
def lookupContextClient (list : SessionList) (context : List UInt8) : Option SessionEntry :=
  (list.sessionEntrySlist ++ list.abandonedQueue).find? (·.context == context)

/-- Modelled from the spec: `session_list_is_full`, the connection's active sessions against
the cap. -/
def isFull (list : SessionList) (connection : Connection) : Bool :=
  list.maxPerConnection ≤ (list.sessionEntrySlist.filter (·.connection == connection)).length

/-- Update the object with identity `id`, wherever it is. -/
def modify (list : SessionList) (id : Nat) (f : SessionEntry → SessionEntry)
    (hf : ∀ e, (f e).id = e.id) : SessionList where
  sessionEntrySlist := list.sessionEntrySlist.map fun e => if e.id = id then f e else e
  abandonedQueue := list.abandonedQueue.map fun e => if e.id = id then f e else e
  maxPerConnection := list.maxPerConnection
  nextId := list.nextId
  nodup := by
    have hmap : (SessionEntry.id ∘ fun e => if e.id = id then f e else e) = SessionEntry.id := by
      funext e
      by_cases h : e.id = id <;> simp [h, hf]
    simpa [← List.map_append, List.map_map, hmap] using list.nodup
  id_lt := by
    intro e he
    simp only [← List.map_append, List.mem_map] at he
    obtain ⟨e', he', rfl⟩ := he
    have hlt := list.id_lt e' he'
    by_cases h : e'.id = id
    · simpa [h, hf] using hlt
    · simpa [h] using hlt

/-- Modelled from the spec: `session_entry_set_state`. -/
def setState (list : SessionList) (id : Nat) (state : SessionEntryStateEnum) : SessionList :=
  list.modify id (fun e => { e with state := state }) fun _ => rfl

/-- Modelled from the spec: `session_entry_set_context`. -/
def setContext (list : SessionList) (id : Nat) (context : List UInt8) : SessionList :=
  list.modify id (fun e => { e with context := context }) fun _ => rfl

/-- Modelled from the spec: `session_list_remove`, dropping the object from the active
sessions. -/
def remove (list : SessionList) (entry : SessionEntry) : SessionList where
  sessionEntrySlist := list.sessionEntrySlist.filter (·.id != entry.id)
  abandonedQueue := list.abandonedQueue
  maxPerConnection := list.maxPerConnection
  nextId := list.nextId
  nodup := list.nodup.sublist (((List.filter_sublist _).append_right _).map _)
  id_lt := fun e he =>
    list.id_lt e (((List.filter_sublist _).append_right _).subset he)

/-- Modelled from the spec: `session_list_remove_handle`, dropping every session with the
handle from both collections. -/
def removeHandle (list : SessionList) (handle : UInt32) : SessionList where
  sessionEntrySlist := list.sessionEntrySlist.filter (·.handle != handle)
  abandonedQueue := list.abandonedQueue.filter (·.handle != handle)
  maxPerConnection := list.maxPerConnection
  nextId := list.nextId
  nodup := list.nodup.sublist
    (((List.filter_sublist _).append (List.filter_sublist _)).map _)
  id_lt := fun e he =>
    list.id_lt e (((List.filter_sublist _).append (List.filter_sublist _)).subset he)

/-- Modelled from the spec: `session_entry_new (connection, handle)` in `state`, given to
`session_list_insert`; the new object gets a fresh identity and joins the active sessions. -/
def insert (list : SessionList) (connection : Connection) (handle : UInt32)
    (state : SessionEntryStateEnum) : SessionList where
  sessionEntrySlist := list.sessionEntrySlist ++ [⟨list.nextId, connection, [], handle, state⟩]
  abandonedQueue := list.abandonedQueue
  maxPerConnection := list.maxPerConnection
  nextId := list.nextId + 1
  nodup := by
    have hperm := (@List.perm_middle _ (⟨list.nextId, connection, [], handle, state⟩ :
      SessionEntry) list.sessionEntrySlist list.abandonedQueue).map SessionEntry.id
    rw [List.append_assoc, List.singleton_append]
    refine hperm.nodup_iff.mpr (List.nodup_cons.mpr ⟨?_, list.nodup⟩)
    intro hmem
    obtain ⟨e, he, heq⟩ := List.mem_map.mp hmem
    exact absurd (heq ▸ list.id_lt e he) (lt_irrefl _)
  id_lt := by
    intro e he
    simp only [List.append_assoc, List.singleton_append, List.mem_append, List.mem_cons] at he
    rcases he with he | rfl | he
    · exact Nat.lt_succ_of_lt (list.id_lt e (List.mem_append_left _ he))
    · exact Nat.lt_succ_self _
    · exact Nat.lt_succ_of_lt (list.id_lt e (List.mem_append_right _ he))

theorem nodup_move_left {a b : List SessionEntry} {x y : SessionEntry} (hx : x ∈ b)
    (hid : y.id = x.id) (h : ((a ++ b).map SessionEntry.id).Nodup) :
    ((a ++ [y] ++ b.erase x).map SessionEntry.id).Nodup := by
  refine (List.Perm.nodup_iff ?_).mpr h
  rw [List.append_assoc, List.singleton_append, List.map_append, List.map_append]
  refine List.Perm.append_left _ ?_
  rw [List.map_cons, hid, ← List.map_cons]
  exact ((List.perm_cons_erase hx).symm).map _

theorem nodup_move_right {a b : List SessionEntry} {x y : SessionEntry} (hx : x ∈ a)
    (hid : y.id = x.id) (h : ((a ++ b).map SessionEntry.id).Nodup) :
    ((a.erase x ++ (b ++ [y])).map SessionEntry.id).Nodup := by
  refine (List.Perm.nodup_iff ?_).mpr h
  have hperm : List.Perm (a.erase x ++ (b ++ [y])) (y :: (a.erase x ++ b)) := by
    rw [← List.append_assoc]
    exact List.perm_append_singleton _ _
  refine (hperm.map _).trans ?_
  rw [List.map_cons, hid, ← List.map_cons, ← List.cons_append]
  exact (((List.perm_cons_erase hx).symm).append_right _).map _

/-- Modelled from the spec: `session_list_claim`, which takes the object out of the
abandoned FIFO, makes `connection` its owner and tracks it again, or fails when the object is
not in the FIFO. -/
def claim (list : SessionList) (entry : SessionEntry) (connection : Connection) :
    Option SessionList :=
  match hfind : list.abandonedQueue.find? (·.id == entry.id) with
  | none => none
  | some e => some {
      sessionEntrySlist := list.sessionEntrySlist ++ [{ e with connection := connection }]
      abandonedQueue := list.abandonedQueue.erase e
      maxPerConnection := list.maxPerConnection
      nextId := list.nextId
      nodup := nodup_move_left (List.mem_of_find?_eq_some hfind) rfl list.nodup
      id_lt := by
        intro x hx
        simp only [List.append_assoc, List.singleton_append, List.mem_append,
          List.mem_cons] at hx
        have hmem := List.mem_of_find?_eq_some hfind
        rcases hx with hx | rfl | hx
        · exact list.id_lt x (List.mem_append_left _ hx)
        · exact list.id_lt e (List.mem_append_right _ hmem)
        · exact list.id_lt x (List.mem_append_right _ (List.mem_of_mem_erase hx)) }

/-- Modelled from the spec: `session_list_abandon_handle`, which moves the connection's
session with the handle from the active sessions to the end of the abandoned FIFO in state
`SAVED_CLIENT_CLOSED`. -/
def abandonHandle (list : SessionList) (connection : Connection) (handle : UInt32) :
    SessionList :=
  match hfind : list.sessionEntrySlist.find?
      (fun e => e.connection == connection && e.handle == handle) with
  | none => list
  | some e => {
      sessionEntrySlist := list.sessionEntrySlist.erase e
      abandonedQueue := list.abandonedQueue ++ [{ e with state := .savedClientClosed }]
      maxPerConnection := list.maxPerConnection
      nextId := list.nextId
      nodup := nodup_move_right (List.mem_of_find?_eq_some hfind) rfl list.nodup
      id_lt := by
        intro x hx
        simp only [List.mem_append, List.mem_singleton] at hx
        have hmem := List.mem_of_find?_eq_some hfind
        rcases hx with hx | hx | rfl
        · exact list.id_lt x (List.mem_append_left _ (List.mem_of_mem_erase hx))
        · exact list.id_lt x (List.mem_append_right _ hx)
        · exact list.id_lt e (List.mem_append_left _ hmem) }

/-- The number of abandoned sessions `session_list_prune_abandoned` evicts. -/
def pruneCount (list : SessionList) : Nat :=
  list.abandonedQueue.length - maxAbandoned

/-- Modelled from the spec: `session_list_prune_abandoned` pops the oldest abandoned sessions
while the FIFO is longer than `MAX_ABANDONED`, and hands each to its callback; here it returns
them, oldest first, for the caller to pass to the callback in that order. -/
def pruneAbandoned (list : SessionList) : List SessionEntry × SessionList :=
  (list.abandonedQueue.take list.pruneCount, {
    sessionEntrySlist := list.sessionEntrySlist
    abandonedQueue := list.abandonedQueue.drop list.pruneCount
    maxPerConnection := list.maxPerConnection
    nextId := list.nextId
    nodup := list.nodup.sublist (((List.drop_sublist _ _).append_left _).map _)
    id_lt := fun e he =>
      list.id_lt e (((List.drop_sublist _ _).append_left _).subset he) })

/-! ## Lemmas -/

theorem lookupHandle_eq_some {list : SessionList} {handle : UInt32} {entry : SessionEntry}
    (h : list.lookupHandle handle = some entry) :
    entry ∈ list.sessionEntrySlist ∧ entry.handle = handle :=
  ⟨List.mem_of_find?_eq_some h, by simpa using List.find?_some h⟩

theorem lookupContextClient_eq_some {list : SessionList} {context : List UInt8}
    {entry : SessionEntry} (h : list.lookupContextClient context = some entry) :
    entry ∈ list.sessionEntrySlist ++ list.abandonedQueue ∧ entry.context = context :=
  ⟨List.mem_of_find?_eq_some h, by simpa using List.find?_some h⟩

theorem eq_of_id_eq {list : SessionList} {x y : SessionEntry}
    (hx : x ∈ list.sessionEntrySlist ++ list.abandonedQueue)
    (hy : y ∈ list.sessionEntrySlist ++ list.abandonedQueue) (h : x.id = y.id) : x = y :=
  List.inj_on_of_nodup_map list.nodup hx hy h

theorem id_not_mem_abandoned {list : SessionList} {x : SessionEntry}
    (hx : x ∈ list.sessionEntrySlist) : ∀ y ∈ list.abandonedQueue, y.id ≠ x.id := by
  intro y hy h
  have heq := eq_of_id_eq (List.mem_append_right _ hy) (List.mem_append_left _ hx) h
  subst heq
  have := list.nodup
  rw [List.map_append] at this
  exact List.disjoint_of_nodup_append this (List.mem_map_of_mem _ hx)
    (List.mem_map_of_mem _ hy)

theorem mem_modify_slist {list : SessionList} {id : Nat} {f : SessionEntry → SessionEntry}
    {hf} {x : SessionEntry} :
    x ∈ (list.modify id f hf).sessionEntrySlist ↔
      ∃ y ∈ list.sessionEntrySlist, (if y.id = id then f y else y) = x := by
  simp [modify]

theorem mem_modify_queue {list : SessionList} {id : Nat} {f : SessionEntry → SessionEntry}
    {hf} {x : SessionEntry} :
    x ∈ (list.modify id f hf).abandonedQueue ↔
      ∃ y ∈ list.abandonedQueue, (if y.id = id then f y else y) = x := by
  simp [modify]

theorem modify_queue_of_forall_ne {list : SessionList} {id : Nat}
    (h : ∀ y ∈ list.abandonedQueue, y.id ≠ id) (f : SessionEntry → SessionEntry) (hf) :
    (list.modify id f hf).abandonedQueue = list.abandonedQueue := by
  refine (List.map_congr_left fun y hy => ?_).trans (List.map_id _)
  simp [h y hy]

theorem mem_setState_slist {list : SessionList} {id : Nat} {state : SessionEntryStateEnum}
    {x : SessionEntry} :
    x ∈ (list.setState id state).sessionEntrySlist ↔ ∃ y ∈ list.sessionEntrySlist,
      (if y.id = id then { y with state := state } else y) = x :=
  mem_modify_slist

theorem mem_setContext_slist {list : SessionList} {id : Nat} {context : List UInt8}
    {x : SessionEntry} :
    x ∈ (list.setContext id context).sessionEntrySlist ↔ ∃ y ∈ list.sessionEntrySlist,
      (if y.id = id then { y with context := context } else y) = x :=
  mem_modify_slist

theorem setState_queue_of_forall_ne {list : SessionList} {id : Nat}
    (h : ∀ y ∈ list.abandonedQueue, y.id ≠ id) (state : SessionEntryStateEnum) :
    (list.setState id state).abandonedQueue = list.abandonedQueue :=
  modify_queue_of_forall_ne h _ _

theorem setContext_queue_of_forall_ne {list : SessionList} {id : Nat}
    (h : ∀ y ∈ list.abandonedQueue, y.id ≠ id) (context : List UInt8) :
    (list.setContext id context).abandonedQueue = list.abandonedQueue :=
  modify_queue_of_forall_ne h _ _

theorem modify_queue_of_mem {list : SessionList} {x : SessionEntry}
    (hx : x ∈ list.sessionEntrySlist) (f : SessionEntry → SessionEntry) (hf) :
    (list.modify x.id f hf).abandonedQueue = list.abandonedQueue :=
  modify_queue_of_forall_ne (id_not_mem_abandoned hx) f hf

@[simp] theorem mem_remove_slist {list : SessionList} {entry x : SessionEntry} :
    x ∈ (list.remove entry).sessionEntrySlist ↔
      x ∈ list.sessionEntrySlist ∧ x.id ≠ entry.id := by
  simp [remove]

@[simp] theorem remove_queue (list : SessionList) (entry : SessionEntry) :
    (list.remove entry).abandonedQueue = list.abandonedQueue := rfl

@[simp] theorem mem_removeHandle_slist {list : SessionList} {handle : UInt32}
    {x : SessionEntry} :
    x ∈ (list.removeHandle handle).sessionEntrySlist ↔
      x ∈ list.sessionEntrySlist ∧ x.handle ≠ handle := by
  simp [removeHandle]

@[simp] theorem mem_removeHandle_queue {list : SessionList} {handle : UInt32}
    {x : SessionEntry} :
    x ∈ (list.removeHandle handle).abandonedQueue ↔
      x ∈ list.abandonedQueue ∧ x.handle ≠ handle := by
  simp [removeHandle]

@[simp] theorem mem_insert_slist {list : SessionList} {connection : Connection}
    {handle : UInt32} {state : SessionEntryStateEnum} {x : SessionEntry} :
    x ∈ (list.insert connection handle state).sessionEntrySlist ↔
      x ∈ list.sessionEntrySlist ∨ x = ⟨list.nextId, connection, [], handle, state⟩ := by
  simp [insert]

@[simp] theorem insert_queue (list : SessionList) (connection : Connection) (handle : UInt32)
    (state : SessionEntryStateEnum) :
    (list.insert connection handle state).abandonedQueue = list.abandonedQueue := rfl

theorem claim_eq_some {list list' : SessionList} {entry : SessionEntry}
    {connection : Connection} (h : list.claim entry connection = some list') :
    ∃ e ∈ list.abandonedQueue, e.id = entry.id ∧
      list'.sessionEntrySlist = list.sessionEntrySlist ++ [{ e with connection := connection }] ∧
      list'.abandonedQueue = list.abandonedQueue.erase e := by
  unfold claim at h
  split at h
  · cases h
  · rename_i e hfind
    cases h
    exact ⟨e, List.mem_of_find?_eq_some hfind, by simpa using List.find?_some hfind, rfl, rfl⟩

theorem claim_of_mem_abandoned {list : SessionList} {entry : SessionEntry}
    (h : entry ∈ list.abandonedQueue) (connection : Connection) :
    ∃ list', list.claim entry connection = some list' ∧
      list'.sessionEntrySlist =
        list.sessionEntrySlist ++ [{ entry with connection := connection }] := by
  obtain ⟨e, he⟩ := Option.isSome_iff_exists.1
    (List.find?_isSome.2 ⟨entry, h, by simp⟩ :
      (list.abandonedQueue.find? (·.id == entry.id)).isSome)
  obtain rfl : e = entry := eq_of_id_eq (List.mem_append_right _ (List.mem_of_find?_eq_some he))
    (List.mem_append_right _ h) (by simpa using List.find?_some he)
  unfold claim
  split
  · rename_i hnone
    rw [hnone] at he
    cases he
  · rename_i e' hfind
    rw [hfind] at he
    cases he
    exact ⟨_, rfl, rfl⟩

theorem abandonHandle_of_find? {list : SessionList} {connection : Connection}
    {handle : UInt32} {e : SessionEntry}
    (h : list.sessionEntrySlist.find?
      (fun e => e.connection == connection && e.handle == handle) = some e) :
    (list.abandonHandle connection handle).sessionEntrySlist = list.sessionEntrySlist.erase e ∧
      (list.abandonHandle connection handle).abandonedQueue =
        list.abandonedQueue ++ [{ e with state := .savedClientClosed }] := by
  unfold abandonHandle
  split
  · rename_i hnone
    rw [hnone] at h
    cases h
  · rename_i e' hfind
    rw [hfind] at h
    cases h
    exact ⟨rfl, rfl⟩

theorem remove_slist_of_eq {list : SessionList} {A L : List SessionEntry} {e : SessionEntry}
    (h : list.sessionEntrySlist = A ++ e :: L) : (list.remove e).sessionEntrySlist = A ++ L := by
  have hnodup := (List.nodup_append.mp (List.map_append _ _ _ ▸ list.nodup)).1
  rw [h, List.map_append, List.map_cons] at hnodup
  have hnot := (List.nodup_cons.mp (List.nodup_middle.mp hnodup)).1
  show List.filter _ list.sessionEntrySlist = _
  rw [h, List.filter_append, List.filter_cons_of_neg (by simp), List.filter_eq_self.mpr,
    List.filter_eq_self.mpr]
  · exact fun x hx => bne_iff_ne.mpr fun h =>
      hnot (List.mem_append_right _ (h ▸ List.mem_map_of_mem SessionEntry.id hx))
  · exact fun x hx => bne_iff_ne.mpr fun h =>
      hnot (List.mem_append_left _ (h ▸ List.mem_map_of_mem SessionEntry.id hx))

theorem abandonHandle_of_eq {list : SessionList} {A L : List SessionEntry} {e : SessionEntry}
    {connection : Connection} (h : list.sessionEntrySlist = A ++ e :: L)
    (hA : ∀ a ∈ A, a.connection ≠ connection) (he : e.connection = connection) :
    (list.abandonHandle connection e.handle).sessionEntrySlist = A ++ L ∧
      (list.abandonHandle connection e.handle).abandonedQueue =
        list.abandonedQueue ++ [{ e with state := .savedClientClosed }] := by
  have hfind : list.sessionEntrySlist.find?
      (fun x => x.connection == connection && x.handle == e.handle) = some e := by
    rw [h, List.find?_append, List.find?_eq_none.mpr (fun a ha => by simp [hA a ha]),
      List.find?_cons_of_pos _ (by simp [he])]
    rfl
  obtain ⟨hs, hq⟩ := abandonHandle_of_find? hfind
  refine ⟨?_, hq⟩
  rw [hs, h, List.erase_append_right _ fun heA => hA e heA he, List.erase_cons_head]

@[simp] theorem pruneAbandoned_fst (list : SessionList) :
    list.pruneAbandoned.1 = list.abandonedQueue.take list.pruneCount := rfl
@[simp] theorem pruneAbandoned_slist (list : SessionList) :
    list.pruneAbandoned.2.sessionEntrySlist = list.sessionEntrySlist := rfl
@[simp] theorem pruneAbandoned_queue (list : SessionList) :
    list.pruneAbandoned.2.abandonedQueue = list.abandonedQueue.drop list.pruneCount := rfl

end SessionList

end Tabrmd

/-!
## Commands, responses and control messages

`tpm2-command.c`, `tpm2-response.c` and `control-message.c` are not part of the source.  A
command is its parsed areas (spec §6); a response is its code, its handle and the bytes after
it, and only a success response has a handle.
-/

namespace Tabrmd

structure TpmsAuthCommand where
  sessionHandle : UInt32
  nonce : List UInt8
  sessionAttributes : UInt8
  hmac : List UInt8
deriving DecidableEq, Repr

def TpmsAuthCommand.marshal (auth : TpmsAuthCommand) : List UInt8 :=
  be32 auth.sessionHandle ++ be16 auth.nonce.length.toUInt16 ++ auth.nonce ++
    [auth.sessionAttributes] ++ be16 auth.hmac.length.toUInt16 ++ auth.hmac

structure Tpm2Command where
  connection : Connection
  code : UInt32
  attributes : UInt32
  handles : List UInt32
  auths : List TpmsAuthCommand
  parameters : List UInt8
deriving DecidableEq, Repr

namespace Tpm2Command

/-- The authorisation area: its size, then the authorisations; absent without sessions. -/
def authArea (command : Tpm2Command) : List UInt8 :=
  if command.auths = [] then []
  else
    let area := command.auths.flatMap TpmsAuthCommand.marshal
    be32 area.length.toUInt32 ++ area

/-- The command buffer after its 10-byte header. -/
def body (command : Tpm2Command) : List UInt8 :=
  command.handles.flatMap be32 ++ command.authArea ++ command.parameters

/-- Modelled from the spec: `tpm2_command_get_handle (command, i)`. -/
def getHandle (command : Tpm2Command) (i : Nat) : UInt32 :=
  command.handles.getD i 0

/-- Modelled from the spec: `tpm2_command_set_handle (command, handle, i)`. -/
def setHandle (command : Tpm2Command) (handle : UInt32) (i : Nat) : Tpm2Command :=
  { command with handles := command.handles.set i handle }

/-- The 32-bit big-endian field at `offset` of the body; bytes past its end read as 0. -/
def bodyField (command : Tpm2Command) (offset : Nat) : UInt32 :=
  (ofBe ((command.body.drop offset ++ List.replicate 4 0).take 4)).toUInt32

/-- Modelled from the spec: `tpm2_command_get_flush_handle` unmarshals the first parameter of
`FlushContext`. -/
def getFlushHandle (command : Tpm2Command) : Except UInt32 UInt32 :=
  match readBe 4 command.body with
  | some (handle, _) => .ok handle.toUInt32
  | none => .error (rmRc tss2BaseRcInsufficientBuffer)

/-- Modelled from the spec: `tpm2_command_get_cap`, `_get_prop` and `_get_prop_count` read
the three parameters of `GetCapability`. -/
def getCap (command : Tpm2Command) : UInt32 := command.bodyField 0
def getProp (command : Tpm2Command) : UInt32 := command.bodyField 4
def getPropCount (command : Tpm2Command) : UInt32 := command.bodyField 8

@[simp] theorem setHandle_connection (command : Tpm2Command) (handle : UInt32) (i : Nat) :
    (command.setHandle handle i).connection = command.connection := rfl

@[simp] theorem setHandle_auths (command : Tpm2Command) (handle : UInt32) (i : Nat) :
    (command.setHandle handle i).auths = command.auths := rfl

@[simp] theorem setHandle_code (command : Tpm2Command) (handle : UInt32) (i : Nat) :
    (command.setHandle handle i).code = command.code := rfl

end Tpm2Command

/-! ## Responses -/

/-- A TPM response as it comes back: the response code of its header, the handle of its
handle area when it has one, and the bytes after the handle area. -/
structure TpmResponse where
  code : UInt32
  handle : Option UInt32
  parameters : List UInt8
  handle_success : handle.isSome → code = tss2RcSuccess

/-- A `Tpm2Response` object: a TPM response addressed to a connection. -/
structure Tpm2Response extends TpmResponse where
  connection : Connection

/-- The response buffer after its header. -/
def TpmResponse.body (response : TpmResponse) : List UInt8 :=
  (response.handle.map be32).getD [] ++ response.parameters

/-- Modelled from the spec: `tpm2_response_new_rc (connection, rc)`, a bare header. -/
def tpm2ResponseNewRc (connection : Connection) (rc : UInt32) : Tpm2Response :=
  ⟨⟨rc, none, [], by simp⟩, connection⟩

/-- Modelled from the spec: `tpm2_response_new_context_save`, whose body is the context the
session entry holds. -/
def tpm2ResponseNewContextSave (connection : Connection) (entry : SessionEntry) :
    Tpm2Response :=
  ⟨⟨tss2RcSuccess, none, entry.context, by simp⟩, connection⟩

/-- Modelled from the spec: `tpm2_response_new_context_load`, carrying the session handle. -/
def tpm2ResponseNewContextLoad (connection : Connection) (entry : SessionEntry) :
    Tpm2Response :=
  ⟨⟨tss2RcSuccess, some entry.handle, [], fun _ => rfl⟩, connection⟩

/-- Modelled from the spec: `tpm2_response_new (connection, buffer, size, attributes)` for
the `GetCapability` response the resource manager builds, which has no handle area. -/
def tpm2ResponseNew (connection : Connection) (buffer : List UInt8) (size : Nat) :
    Tpm2Response :=
  ⟨⟨(ofBe ((buffer.drop 6).take 4)).toUInt32, none, (buffer.take size).drop tpmHeaderSize,
    by simp⟩, connection⟩

/-- Modelled from the spec: `tpm2_response_set_handle` rewrites the handle area. -/
def Tpm2Response.setHandle (response : Tpm2Response) (handle : UInt32) : Tpm2Response :=
  ⟨⟨response.code, response.handle.map fun _ => handle, response.parameters,
    fun h => response.handle_success (by simpa using h)⟩, response.connection⟩

/-! ## Control messages and queue items -/

inductive ControlMessage
  | checkCancel
  | connectionRemoved (connection : Connection)
  | unknown (code : Nat)
deriving DecidableEq, Repr

/-- An object `message_queue_dequeue` returns. -/
inductive QueueItem
  | command (command : Tpm2Command)
  | control (message : ControlMessage)
  | other

/-- An object the resource manager passes to its sink. -/
inductive SinkItem
  | response (response : Tpm2Response)
  | control (message : ControlMessage)

/-! ## `TPMS_CONTEXT` unmarshalling -/

def tss2MuRcLayer : UInt32 := 0x90000
def tss2MuRcInsufficientBuffer : UInt32 := tss2MuRcLayer + 6
def tss2MuRcBadSize : UInt32 := tss2MuRcLayer + 16

/-- `sizeof` the buffer of a `TPM2B_CONTEXT_DATA`. -/
def tpm2bContextDataMax : Nat := 5188

/-- `Tss2_MU_TPMS_CONTEXT_Unmarshal` of bytes: sequence (8 bytes), saved handle (4),
hierarchy (4), then a `TPM2B_CONTEXT_DATA` (2-byte size, then that many bytes). -/
def tss2MuTpmsContextUnmarshal (bytes : List UInt8) : Except UInt32 TpmsContext :=
  match readBe 8 bytes with
  | none => .error tss2MuRcInsufficientBuffer
  | some (sequence, rest) =>
    match readBe 4 rest with
    | none => .error tss2MuRcInsufficientBuffer
    | some (savedHandle, rest) =>
      match readBe 4 rest with
      | none => .error tss2MuRcInsufficientBuffer
      | some (hierarchy, rest) =>
        match readBe 2 rest with
        | none => .error tss2MuRcInsufficientBuffer
        | some (size, rest) =>
          if tpm2bContextDataMax < size then .error tss2MuRcBadSize
          else if rest.length < size then .error tss2MuRcInsufficientBuffer
          else .ok ⟨sequence.toUInt64, savedHandle.toUInt32, hierarchy.toUInt32,
            rest.take size⟩

end Tabrmd
