import Tabrmd.CapHandles
import Tabrmd.Isolation
import Tabrmd.Dispatch

/-!
# No transient stays loaded between commands

When every context load and saveflush succeeds, every entry has physical handle 0 between
messages.  While a command of `c` is in flight, `Loaded w c L` holds: only entries of `c` on
the loaded list `L` are loaded.
-/

namespace Tabrmd

/-- Every entry of every connection's map has physical handle 0. -/
def PhandlesZero (w : World) : Prop :=
  ∀ c, ∀ e ∈ (w.maps c).entries, e.phandle = 0

/-- The calls of the log succeeded as the phandle invariant needs. -/
def TransientCallsOk (w : World) : Prop :=
  ∀ ev ∈ w.log, ev.transientCallOk = true

instance (w : World) : Decidable (TransientCallsOk w) :=
  inferInstanceAs (Decidable (∀ ev ∈ w.log, ev.transientCallOk = true))

theorem TransientCallsOk.last {w : World} {ev : BrokerEvent}
    (h : TransientCallsOk (w.record ev)) : ev.transientCallOk = true :=
  h ev (List.mem_append_right _ (List.mem_singleton_self _))

theorem TransientCallsOk.of_prefix {w w' : World} (h : TransientCallsOk w')
    (hp : w.log <+: w'.log) : TransientCallsOk w :=
  fun ev hev => h ev (hp.subset hev)

structure Loaded (w : World) (c : Connection) (L : List UInt32) : Prop where
  others : ∀ d, d ≠ c → ∀ e ∈ (w.maps d).entries, e.phandle = 0
  listed : ∀ e ∈ (w.maps c).entries, e.phandle ≠ 0 →
    e.vhandle ∈ L ∧ handleType e.phandle = tpm2HtTransient
  transient : ∀ v ∈ L, handleType v = tpm2HtTransient

theorem Loaded.of_phandlesZero {w : World} (h : PhandlesZero w) (c : Connection) :
    Loaded w c [] :=
  ⟨fun d _ => h d, fun e he hne => absurd (h c e he) hne, by simp⟩

theorem Loaded.phandlesZero {w : World} {c : Connection} (h : Loaded w c []) :
    PhandlesZero w := by
  intro d e he
  by_cases hd : d = c
  · subst hd
    by_contra hne
    exact absurd (h.listed e he hne).1 (List.not_mem_nil _)
  · exact h.others d hd e he

theorem Loaded.of_maps_eq {w w' : World} {c : Connection} {L : List UInt32}
    (h : Loaded w c L) (hm : w'.maps = w.maps) : Loaded w' c L := by
  obtain ⟨ho, hl, ht⟩ := h
  exact ⟨by rwa [hm], by rwa [hm], ht⟩

theorem Loaded.mono {w : World} {c : Connection} {L L' : List UInt32} (h : Loaded w c L)
    (hsub : ∀ v ∈ L, v ∈ L') (ht : ∀ v ∈ L', handleType v = tpm2HtTransient) :
    Loaded w c L' :=
  ⟨h.others, fun e he hne => ⟨hsub _ (h.listed e he hne).1, (h.listed e he hne).2⟩, ht⟩

theorem Loaded.of_loaded_subset {w w' : World} {c : Connection} {L : List UInt32}
    (h : Loaded w c L)
    (hsub : ∀ d, ∀ e ∈ (w'.maps d).entries, e.phandle ≠ 0 → e ∈ (w.maps d).entries) :
    Loaded w' c L :=
  ⟨fun d hd e he => by_contra fun hp => hp (h.others d hd e (hsub d e he hp)),
    fun e he hp => h.listed e (hsub c e he hp) hp, h.transient⟩

theorem Loaded.pop {w : World} {c : Connection} {v : UInt32} {L : List UInt32}
    (h : Loaded w c (v :: L))
    (hv : ∀ e ∈ (w.maps c).entries, e.vhandle = v → e.phandle = 0) : Loaded w c L := by
  refine ⟨h.others, fun e he hp => ?_, fun x hx => h.transient x (List.mem_cons_of_mem _ hx)⟩
  obtain ⟨hmem, ht⟩ := h.listed e he hp
  exact ⟨(List.mem_cons.mp hmem).resolve_left fun hev => hp (hv e he hev), ht⟩

theorem setMap_loaded_subset {w : World} {c : Connection} {m : HandleMap}
    (hm : ∀ e ∈ m.entries, e.phandle ≠ 0 → e ∈ (w.maps c).entries) :
    ∀ d, ∀ e ∈ ((w.setMap c m).maps d).entries, e.phandle ≠ 0 → e ∈ (w.maps d).entries := by
  intro d e he hp
  by_cases hd : d = c
  · subst hd
    rw [World.setMap_maps, Function.update_same] at he
    exact hm e he hp
  · simpa [Function.update_noteq hd] using he

variable (E : Env)

/-! ## Loading -/

theorem resourceManagerLoadTransient_loaded {cs : CommandState} {c : Connection}
    {handle : UInt32} (i : Nat) (hc : cs.command.connection = c)
    (hh : handleType handle = tpm2HtTransient) (h : Loaded cs.world c cs.transientSlist)
    (hok : TransientCallsOk (resourceManagerLoadTransient E cs handle i).2.world) :
    Loaded (resourceManagerLoadTransient E cs handle i).2.world c
      (resourceManagerLoadTransient E cs handle i).2.transientSlist := by
  subst hc
  rcases resourceManagerLoadTransient_cases E cs handle i with
    hr | ⟨entry, hv, ⟨rc, -, hr⟩ | ⟨phandle, -, hr⟩⟩ <;> rw [hr] at hok ⊢
  · exact h
  · have hkey := (HandleMap.vlookup_eq_some hv).2
    split_ifs
    · exact h.of_maps_eq rfl
    · exact (h.mono (fun v hv => List.mem_cons_of_mem entry.vhandle hv)
        (by simpa [hkey, hh] using h.transient)).of_maps_eq rfl
  · have hkey := (HandleMap.vlookup_eq_some hv).2
    have hp : handleType phandle = tpm2HtTransient := by
      simpa [BrokerEvent.transientCallOk] using hok.last
    refine ⟨fun d hd => ?_, fun e he hne => ?_, ?_⟩
    · simpa [Function.update_noteq hd] using h.others d hd
    · simp only [World.setMap_maps, World.record_maps, Function.update_same] at he
      obtain ⟨y, hy, rfl⟩ := HandleMap.mem_update.mp he
      by_cases hyv : y.vhandle = entry.vhandle
      · simp only [hyv, ite_true] at hne ⊢
        exact ⟨hyv ▸ List.mem_cons_self _ _, hp⟩
      · simp only [hyv, ite_false] at hne ⊢
        exact ⟨List.mem_cons_of_mem _ (h.listed y hy hne).1, (h.listed y hy hne).2⟩
    · simpa [hkey, hh] using h.transient

theorem loadHandlesBody_loaded {acc : UInt32 × CommandState} {c : Connection}
    (ih : Nat × UInt32) (hc : acc.2.command.connection = c)
    (h : Loaded acc.2.world c acc.2.transientSlist)
    (hok : TransientCallsOk (loadHandlesBody E acc ih).2.world) :
    Loaded (loadHandlesBody E acc ih).2.world c (loadHandlesBody E acc ih).2.transientSlist := by
  unfold loadHandlesBody at hok ⊢
  split_ifs at hok ⊢ with hh
  · exact resourceManagerLoadTransient_loaded E ih.1 hc hh h hok
  · exact h.of_maps_eq (resourceManagerLoadSessionFromHandle_frame E _ _ _ _).1
  · exact h

theorem loadContexts_loaded {cs cs' : CommandState} {c : Connection}
    (hr : loadContexts E cs = .ok cs') (hc : cs.command.connection = c)
    (h : Loaded cs.world c cs.transientSlist) (hok : TransientCallsOk cs'.world) :
    Loaded cs'.world c cs'.transientSlist :=
  (loadContexts_rec E (fun cs₂ => cs₂.command.connection = c ∧
      (TransientCallsOk cs₂.world → Loaded cs₂.world c cs₂.transientSlist))
    (fun acc ih hacc => ⟨(loadHandlesBody_frame E acc ih).1.trans hacc.1, fun hok' =>
      loadHandlesBody_loaded E ih hacc.1
        (hacc.2 (hok'.of_prefix (loadHandlesBody_frame E acc ih).2)) hok'⟩)
    (fun cs₂ auth hcs => by
      obtain ⟨hcmd, hl, hmaps, hlog⟩ := resourceManagerLoadAuthCallback_frame E cs₂ auth
      exact ⟨hcmd ▸ hcs.1, fun hok' => hl ▸ (hcs.2 (hok'.of_prefix hlog)).of_maps_eq hmaps⟩)
    hr ⟨hc, fun _ => h⟩).2 hok

/-! ## Saving -/

theorem resourceManagerFlushsaveContext_loaded {w : World} {c : Connection} {v : UInt32}
    {L : List UInt32} (h : Loaded w c (v :: L))
    (hok : TransientCallsOk (resourceManagerFlushsaveContext E w c v)) :
    Loaded (resourceManagerFlushsaveContext E w c v) c L := by
  rcases resourceManagerFlushsaveContext_cases E w c v with
    ⟨hw, hnt⟩ | ⟨entry, -, -, ⟨rc, -, hw⟩ | ⟨ctx, -, hw⟩⟩ <;> rw [hw] at hok ⊢
  · exact h.pop fun e he hev => by_contra fun hp => hnt e he hev (h.listed e he hp).2
  · exact absurd hok.last (by simp [BrokerEvent.transientCallOk])
  · have h' : Loaded (w.record (.contextSaveflush entry.phandle (.ok ctx))) c (v :: L) :=
      h.of_maps_eq rfl
    refine (h'.of_loaded_subset (setMap_loaded_subset fun e he hp => ?_)).pop fun e he hev => ?_
    · obtain ⟨y, hy, rfl⟩ := HandleMap.mem_update.mp he
      split_ifs at hp ⊢
      · exact absurd rfl hp
      · exact hy
    · rw [World.setMap_maps, Function.update_same] at he
      obtain ⟨y, -, rfl⟩ := HandleMap.mem_update.mp he
      split_ifs at hev ⊢ with hyv
      · rfl
      · exact absurd hev hyv

theorem removeEntryFromHandleMap_loaded {w : World} {c : Connection} {v : UInt32}
    {L : List UInt32} (h : Loaded w c (v :: L)) :
    Loaded (removeEntryFromHandleMap w c v) c L := by
  unfold removeEntryFromHandleMap
  rw [if_pos (h.transient v (List.mem_cons_self _ _))]
  refine (h.of_loaded_subset (setMap_loaded_subset fun e he _ =>
    (HandleMap.mem_remove.mp he).1)).pop fun e he hev => ?_
  rw [World.setMap_maps, Function.update_same, HandleMap.mem_remove] at he
  exact absurd hev he.2

theorem postProcessLoadedTransients_phandlesZero {w : World} {c : Connection}
    {L : List UInt32} {attrs : UInt32} (h : Loaded w c L)
    (hok : TransientCallsOk (postProcessLoadedTransients E w L c attrs)) :
    PhandlesZero (postProcessLoadedTransients E w L c attrs) := by
  induction L generalizing w with
  | nil => simpa using h.phandlesZero
  | cons v L ih =>
    rw [postProcessLoadedTransients_cons] at hok ⊢
    split_ifs at hok ⊢
    · exact ih (resourceManagerFlushsaveContext_loaded E h
        (hok.of_prefix (postProcessLoadedTransients_frame E _ L c attrs).2)) hok
    · exact ih (removeEntryFromHandleMap_loaded h) hok

theorem sendResponse_phandlesZero {w : World} {c : Connection} {L : List UInt32}
    {response : Tpm2Response} {attrs : UInt32} (h : Loaded w c L)
    (hok : TransientCallsOk (sendResponse E w response L c attrs)) :
    PhandlesZero (sendResponse E w response L c attrs) :=
  postProcessLoadedTransients_phandlesZero E (h.of_maps_eq (saveSessionContexts_frame E _).1) hok

/-! ## Mapping the response and the whole command -/

theorem resourceManagerCreateContextMapping_loaded {w : World} {response : Tpm2Response}
    {L : List UInt32} {r : Tpm2Response × List UInt32 × World} {c : Connection}
    (hmap : resourceManagerCreateContextMapping w response L = .ok r)
    (hc : response.connection = c) (h : Loaded w c L) : Loaded r.2.2 c r.2.1 := by
  rcases resourceManagerCreateContextMapping_eq_ok hmap with
    rfl | ⟨handle, -, ht, hz, rfl⟩ | ⟨-, -, -, rfl⟩
  · exact h
  · subst hc
    obtain ⟨hlt, hnext⟩ := HandleMap.nextVhandle_fst_ne_zero hz
    have htv : handleType (w.maps response.connection).nextVhandle.1 = tpm2HtTransient := by
      rw [hnext]
      exact HandleMap.handleType_vhandleOf (by omega)
    refine ⟨fun d hd e he => ?_, fun e he hp => ?_, ?_⟩
    · rw [World.setMap_maps, Function.update_noteq hd] at he
      exact h.others d hd e he
    · rw [World.setMap_maps, Function.update_same, HandleMap.mem_insert,
        HandleMap.nextVhandle_snd_entries] at he
      rcases he with rfl | ⟨he, -⟩
      · simp [handleMapEntryNew, ht]
      · exact (h.listed e he hp).imp_left fun hv =>
          List.mem_cons_of_mem _ (List.mem_cons_of_mem _ hv)
    · simpa [htv] using h.transient
  · exact h.of_maps_eq (createContextMappingSession_maps _ _ _)

theorem commandSpecialProcessing_phandlesZero {w : World} (command : Tpm2Command)
    (h : PhandlesZero w) : PhandlesZero (commandSpecialProcessing E w command).2 :=
  fun d e he => h d e (commandSpecialProcessing_maps E w command d he)

/-- One command, on every path of `resource_manager_process_tpm2_command`, leaves every entry
saved. -/
theorem resourceManagerProcessTpm2Command_phandlesZero {w w' : World}
    {command : Tpm2Command} (h : PhandlesZero w)
    (hr : resourceManagerProcessTpm2Command E w command = .ok w')
    (hok : TransientCallsOk w') : PhandlesZero w' := by
  have hs := commandSpecialProcessing_phandlesZero E command h
  obtain ⟨w₁, response, L, rfl, -, hcases⟩ := resourceManagerProcessTpm2Command_eq_ok E hr
  refine sendResponse_phandlesZero E ?_ hok
  rcases hcases with ⟨rfl, rfl⟩ | ⟨rfl, rfl⟩ | ⟨cs, response₀, hcs, hc, hmap⟩
  · exact Loaded.of_phandlesZero h _
  · exact Loaded.of_phandlesZero hs _
  · obtain ⟨-, hlog⟩ := resourceManagerCreateContextMapping_log_of_loadContexts E hcs hmap
    have hcs' := loadContexts_loaded E hcs rfl (Loaded.of_phandlesZero hs _)
      (hok.of_prefix (hlog.trans (sendResponse_log E _ _ _ _ _)))
    exact resourceManagerCreateContextMapping_loaded hmap hc (hcs'.of_maps_eq rfl)

/-! ## Runs of the thread -/

theorem initial_phandlesZero (maxTransients maxSessions : Nat) :
    PhandlesZero (World.initial maxTransients maxSessions) :=
  fun _ _ he => absurd he (List.not_mem_nil _)

/-- At every message boundary of a run in which the RM's own loads and save-and-flushes of
transients succeed, every entry of every map has physical handle 0. -/
theorem resourceManagerThread_phandlesZero {queue : List (Option QueueItem)}
    {maxTransients maxSessions : Nat} {w : World}
    (hrun : resourceManagerThread E queue (World.initial maxTransients maxSessions) = .ok w)
    (hok : TransientCallsOk w) : PhandlesZero w :=
  resourceManagerThread_rec E (fun w => TransientCallsOk w → PhandlesZero w)
    (fun _ _ _ hw hr hok => resourceManagerProcessTpm2Command_phandlesZero E
      (hw (hok.of_prefix (resourceManagerProcessTpm2Command_log E hr))) hr hok)
    (fun _ _ _ hw hr hok d e he => by
      obtain ⟨hm, hl⟩ := resourceManagerProcessControl_frame E hr
      rw [hm] at he
      exact hw (hok.of_prefix hl) d e he)
    (fun _ => initial_phandlesZero _ _) hrun hok

/-! ## A run that names one object twice

A client creates a primary object and then names its vhandle in both handle slots of a
`TPM2_Certify`.  Each slot loads the saved context, so the TPM holds two copies; the second
load overwrites the entry's physical handle, and the first copy is never flushed. -/

/-- An AccessBroker whose TPM answers the first command with transient `0x80000000` and
loads contexts into `0x80000000`, then `0x80000001`. -/
def certifyEnv : Env where
  sendCommand := fun log _ =>
    if log.length = 0 then .ok ⟨0, some 0x80000000, [], fun _ => rfl⟩
    else .ok ⟨0, none, [], by simp⟩
  sendContextLoad := fun _ _ => .error 1
  sendContextSave := fun _ _ => .error 1
  contextLoad := fun log _ => if log.length = 2 then .ok 0x80000000 else .ok 0x80000001
  contextSaveflush := fun _ _ => .ok TpmsContext.empty
  contextFlush := fun _ _ => 0
  stackSavedHandle := fun _ _ => 0

/-- `TPM2_CreatePrimary` under the owner hierarchy. -/
def createPrimary (c : Connection) : Tpm2Command :=
  ⟨c, tpm2CcCreatePrimary, 0, [0x40000001], [], []⟩

/-- `TPM2_Certify` (command code `0x148`) with `v` as both the object and the signing key. -/
def certifyTwice (c : Connection) (v : UInt32) : Tpm2Command := ⟨c, 0x148, 0, [v, v], [], []⟩

def certifyQueue : List (Option QueueItem) :=
  [some (.command (createPrimary ⟨1⟩)), some (.command (certifyTwice ⟨1⟩ 0x80000001))]

theorem certifyQueue_phandlesZero :
    ∃ w, resourceManagerThread certifyEnv certifyQueue (World.initial 3 3) = .ok w ∧
      TransientCallsOk w ∧ PhandlesZero w := by
  obtain ⟨w, hrun, hok⟩ : ∃ w, resourceManagerThread certifyEnv certifyQueue
      (World.initial 3 3) = .ok w ∧ TransientCallsOk w :=
    exists_ok_of_decide (by decide)
  exact ⟨w, hrun, hok, resourceManagerThread_phandlesZero certifyEnv hrun hok⟩

/-- The maps are all saved, yet the TPM still holds the first copy. -/
theorem certifyQueue_leaves_transient_resident :
    ∃ w, resourceManagerThread certifyEnv certifyQueue (World.initial 3 3) = .ok w ∧
      TransientCallsOk w ∧ residentTransients w.log = [0x80000000] :=
  exists_ok_of_decide (by decide)

/-! ## A `TPMA_CC_FLUSHED` command the TPM rejects

A client starts a hash sequence and completes it, but the TPM rejects the
`TPM2_SequenceComplete`.  The TPM keeps the sequence object, while
`post_process_loaded_transients` sees `TPMA_CC_FLUSHED` and drops the entry, so the
vhandle no longer names anything. -/

/-- An AccessBroker whose TPM answers the first command with transient `0x80000000` and fails
every later one with `TPM2_RC_AUTH_FAIL`. -/
def failEnv : Env where
  sendCommand := fun log _ =>
    if log.length = 0 then .ok ⟨0, some 0x80000000, [], fun _ => rfl⟩
    else .ok ⟨0x98E, none, [], by simp⟩
  sendContextLoad := fun _ _ => .error 1
  sendContextSave := fun _ _ => .error 1
  contextLoad := fun _ _ => .ok 0x80000000
  contextSaveflush := fun _ _ => .ok TpmsContext.empty
  contextFlush := fun _ _ => 0
  stackSavedHandle := fun _ _ => 0

/-- `TPM2_HashSequenceStart` (command code `0x186`) for SHA-256. -/
def hashSequenceStart (c : Connection) : Tpm2Command := ⟨c, 0x186, 0, [], [], [0, 0, 0, 11]⟩

/-- `TPM2_SequenceComplete` (command code `0x13E`, `TPMA_CC_FLUSHED` set) of sequence `v`. -/
def sequenceComplete (c : Connection) (v : UInt32) : Tpm2Command :=
  ⟨c, 0x13E, tpmaCcFlushed, [v], [⟨0x40000009, [], 1, []⟩], [0, 0]⟩

def sequenceQueue : List (Option QueueItem) :=
  [some (.command (hashSequenceStart ⟨1⟩)), some (.command (sequenceComplete ⟨1⟩ 0x80000001))]

theorem sequenceQueue_unbinds_resident_object :
    ∃ w, resourceManagerThread failEnv sequenceQueue (World.initial 3 3) = .ok w ∧
      TransientCallsOk w ∧ (w.maps ⟨1⟩).vlookup 0x80000001 = none ∧
      residentTransients w.log = [0x80000000] :=
  exists_ok_of_decide (by decide)

end Tabrmd

/-!
## Vhandles

Every vhandle a map holds is a transient handle its counter handed out, and the next one it
hands out is held by no entry.
-/

namespace Tabrmd

open HandleMap (vhandleOf maxHandleCount)

/-- Every vhandle of the map was handed out by its counter. -/
def KeysIssued (map : HandleMap) : Prop :=
  map.handleCount ≤ maxHandleCount ∧
    ∀ e ∈ map.entries, ∃ k, k ≤ map.handleCount ∧ e.vhandle = vhandleOf k

/-- Two maps with the same vhandles, in order, the same counter and the same capacity. -/
def SameKeys (map map' : HandleMap) : Prop :=
  map'.entries.map HandleMapEntry.vhandle = map.entries.map HandleMapEntry.vhandle ∧
    map'.handleCount = map.handleCount ∧ map'.maxEntries = map.maxEntries

namespace SameKeys

variable {m₁ m₂ m₃ : HandleMap}

theorem refl (m : HandleMap) : SameKeys m m := ⟨rfl, rfl, rfl⟩

theorem trans (h₁ : SameKeys m₁ m₂) (h₂ : SameKeys m₂ m₃) : SameKeys m₁ m₃ :=
  ⟨h₂.1.trans h₁.1, h₂.2.1.trans h₁.2.1, h₂.2.2.trans h₁.2.2⟩

theorem length_eq (h : SameKeys m₁ m₂) : m₂.entries.length = m₁.entries.length := by
  simpa using congrArg List.length h.1

theorem keysIssued (h : SameKeys m₁ m₂) (hk : KeysIssued m₁) : KeysIssued m₂ := by
  refine ⟨h.2.1 ▸ hk.1, fun e he => ?_⟩
  obtain ⟨e₁, he₁, hv⟩ := List.mem_map.mp (h.1 ▸ List.mem_map_of_mem HandleMapEntry.vhandle he)
  obtain ⟨k, hk', hkv⟩ := hk.2 e₁ he₁
  exact ⟨k, h.2.1 ▸ hk', hv ▸ hkv⟩

end SameKeys

theorem HandleMap.sameKeys_update (m : HandleMap) (v p : UInt32)
    (f : TpmsContext → TpmsContext) : SameKeys m (m.update v p f) :=
  ⟨HandleMap.update_keys m v p f, rfl, rfl⟩

/-- `map'` is `map` with one more entry, under a vhandle the counter handed out. -/
def GrewByOne (map map' : HandleMap) : Prop :=
  KeysIssued map' ∧ map'.entries.length = map.entries.length + 1 ∧
    map'.handleCount = map.handleCount + 1 ∧ map'.maxEntries = map.maxEntries

theorem GrewByOne.of_sameKeys {m m' m'' : HandleMap} (h : GrewByOne m m') (h' : SameKeys m' m'') :
    GrewByOne m m'' :=
  ⟨h'.keysIssued h.1, h'.length_eq.trans h.2.1, h'.2.1.trans h.2.2.1, h'.2.2.trans h.2.2.2⟩

theorem KeysIssued.insert_next {m : HandleMap} (hk : KeysIssued m)
    (hlt : m.handleCount < maxHandleCount) (phandle : UInt32) :
    let next := m.nextVhandle
    next.1 ≠ 0 ∧ GrewByOne m (next.2.insert (handleMapEntryNew phandle next.1)) := by
  simp only [HandleMap.nextVhandle, if_pos hlt]
  refine ⟨fun h0 => ?_, ⟨by simpa using hlt, fun e he => ?_⟩, ?_, rfl, rfl⟩
  · have := HandleMap.toNat_vhandleOf (Nat.succ_le_of_lt hlt)
    rw [h0] at this
    simp only [UInt32.toNat_zero] at this
    omega
  · rcases HandleMap.mem_insert.mp he with rfl | ⟨he, -⟩
    · exact ⟨m.handleCount + 1, le_rfl, rfl⟩
    · obtain ⟨k, hk', hkv⟩ := hk.2 e he
      exact ⟨k, by simp only [HandleMap.insert_handleCount]; omega, hkv⟩
  · refine HandleMap.insert_length fun e he hv => ?_
    obtain ⟨k, hk', hkv⟩ := hk.2 e he
    have := HandleMap.vhandleOf_injective (hk'.trans hk.1) (Nat.succ_le_of_lt hlt)
      (hkv.symm.trans hv)
    omega

theorem KeysIssued.transient_fresh {m : HandleMap} (hk : KeysIssued m) :
    ∀ e ∈ m.entries, handleType e.vhandle = tpm2HtTransient ∧ e.vhandle ≠ m.nextVhandle.1 := by
  intro e he
  obtain ⟨k, hk', hkv⟩ := hk.2 e he
  have hkmax := hk'.trans hk.1
  rw [hkv]
  refine ⟨HandleMap.handleType_vhandleOf hkmax, fun hv => ?_⟩
  rcases HandleMap.nextVhandle_cases m with h | ⟨hlt, h⟩ <;> rw [h] at hv
  · have := HandleMap.toNat_vhandleOf hkmax
    rw [hv, UInt32.toNat_zero] at this
    omega
  · have := HandleMap.vhandleOf_injective hkmax (Nat.succ_le_of_lt hlt) hv
    omega

theorem KeysIssued.remove {m : HandleMap} (hk : KeysIssued m) (v : UInt32) :
    KeysIssued (m.remove v) :=
  ⟨hk.1, fun e he => hk.2 e (HandleMap.mem_remove.mp he).1⟩

theorem MapWrite.keysIssued {m m' : HandleMap} (h : MapWrite m m') (hk : KeysIssued m) :
    KeysIssued m' := by
  cases h with
  | update v p f => exact (HandleMap.sameKeys_update m v p f).keysIssued hk
  | remove v => exact hk.remove v
  | insertNext phandle hne =>
    have hlt : m.handleCount < maxHandleCount := by
      by_contra hge
      simp [HandleMap.nextVhandle, hge] at hne
    exact (hk.insert_next hlt phandle).2.1

theorem KeysIssued.of_writes {m m' : HandleMap} (h : Relation.ReflTransGen MapWrite m m')
    (hk : KeysIssued m) : KeysIssued m' := by
  induction h with
  | refl => exact hk
  | tail _ hw ih => exact hw.keysIssued ih

theorem MapsStep.keysIssued {c : Connection} {w w' : World} (h : MapsStep c w w')
    (hk : ∀ d, KeysIssued (w.maps d)) (d : Connection) : KeysIssued (w'.maps d) := by
  by_cases hd : d = c
  · exact hd ▸ (hk c).of_writes h.writes
  · exact h.others d hd ▸ hk d

theorem initial_keysIssued (maxTransients maxSessions : Nat) (c : Connection) :
    KeysIssued ((World.initial maxTransients maxSessions).maps c) :=
  ⟨Nat.zero_le _, fun _ he => absurd he (List.not_mem_nil _)⟩

variable (E : Env)

/-- From the start, whatever the queue and whatever the TPM answers, every vhandle a
connection's map holds is a transient handle its counter handed out, and the counter's next
vhandle is held by no entry. -/
theorem resourceManagerThread_vhandlesIssued {queue : List (Option QueueItem)}
    {maxTransients maxSessions : Nat} {w : World}
    (hrun : resourceManagerThread E queue (World.initial maxTransients maxSessions) = .ok w)
    (c : Connection) :
    KeysIssued (w.maps c) ∧ ∀ e ∈ (w.maps c).entries,
      handleType e.vhandle = tpm2HtTransient ∧ e.vhandle ≠ (w.maps c).nextVhandle.1 := by
  have hk : ∀ d, KeysIssued (w.maps d) :=
    resourceManagerThread_rec E (fun w => ∀ d, KeysIssued (w.maps d))
      (fun _ _ _ hk hr => (resourceManagerProcessTpm2Command_mapsStep E hr).keysIssued hk)
      (fun _ _ _ hk hr d => by rw [(resourceManagerProcessControl_frame E hr).1]; exact hk d)
      (initial_keysIssued maxTransients maxSessions) hrun
  exact ⟨hk c, (hk c).transient_fresh⟩

theorem certifyQueue_vhandlesIssued :
    ∃ w, resourceManagerThread certifyEnv certifyQueue (World.initial 3 3) = .ok w ∧
      KeysIssued (w.maps ⟨1⟩) ∧ ∀ e ∈ (w.maps ⟨1⟩).entries,
        handleType e.vhandle = tpm2HtTransient ∧ e.vhandle ≠ (w.maps ⟨1⟩).nextVhandle.1 := by
  obtain ⟨w, hrun, -⟩ : ∃ w, resourceManagerThread certifyEnv certifyQueue
      (World.initial 3 3) = .ok w ∧ True :=
    exists_ok_of_decide (by decide)
  exact ⟨w, hrun, resourceManagerThread_vhandlesIssued certifyEnv hrun ⟨1⟩⟩

end Tabrmd

/-!
## Quotas

The quota check holds back only `CreatePrimary`, `Load`, `LoadExternal` and
`StartAuthSession`; other commands that create a transient grow the map past its capacity.
-/

namespace Tabrmd

open HandleMap (vhandleOf maxHandleCount)

variable (E : Env)

/-! ## Saving keeps the vhandles -/

theorem resourceManagerFlushsaveContext_sameKeys (w : World) (c : Connection) (v : UInt32)
    (d : Connection) : SameKeys (w.maps d) ((resourceManagerFlushsaveContext E w c v).maps d) := by
  rcases resourceManagerFlushsaveContext_cases E w c v with
    ⟨h, -⟩ | ⟨entry, -, -, ⟨rc, -, h⟩ | ⟨ctx, -, h⟩⟩ <;> rw [h]
  · exact .refl _
  · exact .refl _
  · by_cases hd : d = c
    · subst hd
      simpa using HandleMap.sameKeys_update _ _ _ _
    · simpa [Function.update_noteq hd] using SameKeys.refl (w.maps d)

theorem postProcessLoadedTransients_sameKeys (w : World) (L : List UInt32) (c : Connection)
    {attrs : UInt32} (hattrs : attrs &&& tpmaCcFlushed = 0) (d : Connection) :
    SameKeys (w.maps d) ((postProcessLoadedTransients E w L c attrs).maps d) := by
  induction L generalizing w with
  | nil => simpa using SameKeys.refl (w.maps d)
  | cons v L ih =>
    rw [postProcessLoadedTransients_cons, if_pos hattrs]
    exact (resourceManagerFlushsaveContext_sameKeys E w c v d).trans (ih _)

theorem sendResponse_sameKeys {w : World} {response : Tpm2Response} {L : List UInt32}
    {c : Connection} {attrs : UInt32} (hattrs : attrs &&& tpmaCcFlushed = 0) {d : Connection}
    {m : HandleMap} (hm : w.maps d = m) :
    SameKeys m ((sendResponse E w response L c attrs).maps d) := by
  have h := postProcessLoadedTransients_sameKeys E
    (saveSessionContexts E (w.sinkEnqueue (.response response))) L c hattrs d
  rwa [(saveSessionContexts_frame E _).1, World.sinkEnqueue_maps, hm] at h

/-! ## Commands that create a transient unchecked -/

/-- An AccessBroker whose TPM answers every command with transient `0x80000000` and whose
save-and-flush always succeeds. -/
def seqEnv : Env where
  sendCommand := fun _ _ => .ok ⟨0, some 0x80000000, [], fun _ => rfl⟩
  sendContextLoad := fun _ _ => .error 1
  sendContextSave := fun _ _ => .error 1
  contextLoad := fun _ _ => .ok 0x80000000
  contextSaveflush := fun _ _ => .ok TpmsContext.empty
  contextFlush := fun _ _ => 0
  stackSavedHandle := fun _ _ => 0

theorem resourceManagerProcessTpm2Command_hashSequenceStart {w : World} {c : Connection}
    (hk : KeysIssued (w.maps c)) (hlt : (w.maps c).handleCount < maxHandleCount) :
    ∃ w', resourceManagerProcessTpm2Command seqEnv w (hashSequenceStart c) = .ok w' ∧
      GrewByOne (w.maps c) (w'.maps c) := by
  obtain ⟨hne, hgrow⟩ := hk.insert_next hlt 0x80000000
  have hq : resourceManagerQuotaCheck w (hashSequenceStart c) = tss2RcSuccess := rfl
  have hs : commandSpecialProcessing seqEnv w (hashSequenceStart c) = (none, w) := rfl
  have hl : loadContexts seqEnv ⟨w, hashSequenceStart c, []⟩ =
      .ok ⟨w, hashSequenceStart c, []⟩ := rfl
  have ht : handleType 0x80000000 = tpm2HtTransient := by decide
  have hc : (hashSequenceStart c).connection = c := rfl
  unfold resourceManagerProcessTpm2Command
  simp only [hq, hs, hl, ne_eq, not_true_eq_false, if_false]
  unfold resourceManagerCreateContextMapping createContextMappingTransient
  simp only [World.accessBrokerSendCommand, seqEnv, Option.getD_some, World.record_maps, hc, ht,
    if_true, hne, if_false]
  have hattrs : (hashSequenceStart c).attributes &&& tpmaCcFlushed = 0 :=
    show (0 : UInt32) &&& tpmaCcFlushed = 0 by decide
  exact ⟨_, rfl, hgrow.of_sameKeys (sendResponse_sameKeys seqEnv hattrs (by simp))⟩

theorem resourceManagerThread_hashSequenceStarts (c : Connection) (n : Nat) :
    ∀ w, KeysIssued (w.maps c) → (w.maps c).handleCount + n ≤ maxHandleCount →
      ∃ w', resourceManagerThread seqEnv
          (List.replicate n (some (.command (hashSequenceStart c)))) w = .ok w' ∧
        KeysIssued (w'.maps c) ∧ (w'.maps c).entries.length = (w.maps c).entries.length + n ∧
        (w'.maps c).handleCount = (w.maps c).handleCount + n ∧
        (w'.maps c).maxEntries = (w.maps c).maxEntries := by
  induction n with
  | zero => exact fun w hk _ => ⟨w, rfl, hk, rfl, rfl, rfl⟩
  | succ n ih =>
    intro w hk hn
    obtain ⟨w₁, h₁, hk₁, hl₁, hc₁, hm₁⟩ :=
      resourceManagerProcessTpm2Command_hashSequenceStart hk (by omega)
    obtain ⟨w', h', hk', hl', hc', hm'⟩ := ih w₁ hk₁ (by omega)
    refine ⟨w', ?_, hk', by omega, by omega, hm'.trans hm₁⟩
    simp only [List.replicate_succ, resourceManagerThread, h₁]
    exact h'

/-- Whatever the capacity `N`, `N + 1` hash sequences of one connection leave `N + 1` entries
in its map. -/
theorem hashSequenceStarts_exceed_capacity (N : Nat) (hN : N < maxHandleCount) :
    ∃ w, resourceManagerThread seqEnv
        (List.replicate (N + 1) (some (.command (hashSequenceStart ⟨1⟩))))
        (World.initial N 64) = .ok w ∧
      (w.maps ⟨1⟩).maxEntries < (w.maps ⟨1⟩).entries.length := by
  obtain ⟨w, hrun, -, hlen, -, hmax⟩ := resourceManagerThread_hashSequenceStarts ⟨1⟩ (N + 1)
    (World.initial N 64) (initial_keysIssued N 64 ⟨1⟩)
    (by simp [World.initial, HandleMap.new]; omega)
  refine ⟨w, hrun, ?_⟩
  simp only [hlen, hmax, World.initial, HandleMap.new]
  omega

theorem hashSequenceStarts_exceed_default_capacity :
    27 < maxHandleCount ∧ ∃ w, resourceManagerThread seqEnv
        (List.replicate 28 (some (.command (hashSequenceStart ⟨1⟩))))
        (World.initial 27 64) = .ok w ∧
      (w.maps ⟨1⟩).maxEntries < (w.maps ⟨1⟩).entries.length :=
  ⟨by decide, hashSequenceStarts_exceed_capacity 27 (by decide)⟩

/-! ## A `GetCapability` past `TPM2_MAX_CAP_HANDLES`

`get_cap_handles` passes `prop_count` on unclamped, so a map holding more vhandles than a
`TPMS_CAPABILITY_DATA` has room for makes `vhandle_iterator_callback` count past the array:
its last store goes to `handle [TPM2_MAX_CAP_HANDLES]`.  255 hash sequences give such a map. -/

/-- `TPM2_GetCapability (TPM2_CAP_HANDLES, prop, count)`. -/
def getCapabilityHandles (c : Connection) (prop count : UInt32) : Tpm2Command :=
  ⟨c, tpm2CcGetCapability, 0, [], [], be32 tpm2CapHandles ++ be32 prop ++ be32 count⟩

theorem getCapHandles_overruns_handle_array :
    ∃ w, resourceManagerThread seqEnv
        (List.replicate 255 (some (.command (hashSequenceStart ⟨1⟩))))
        (World.initial 27 64) = .ok w ∧
      tpm2MaxCapHandles < (getCapHandles (w.maps ⟨1⟩)
        (getCapabilityHandles ⟨1⟩ 0x80000000 0xFFFFFFFF).getProp
        (getCapabilityHandles ⟨1⟩ 0x80000000 0xFFFFFFFF).getPropCount).1.count := by
  obtain ⟨w, hrun, hk, hlen, -, -⟩ := resourceManagerThread_hashSequenceStarts ⟨1⟩ 255
    (World.initial 27 64) (initial_keysIssued 27 64 ⟨1⟩) (by decide)
  refine ⟨w, hrun, ?_⟩
  have hprop : (getCapabilityHandles ⟨1⟩ 0x80000000 0xFFFFFFFF).getProp = 0x80000000 := by
    decide
  have hcount : (getCapabilityHandles ⟨1⟩ 0x80000000 0xFFFFFFFF).getPropCount = 0xFFFFFFFF := by
    decide
  have hkeys : (w.maps ⟨1⟩).getKeys.filter (fun v => ¬ v < 0x80000000) = (w.maps ⟨1⟩).getKeys := by
    refine List.filter_eq_self.mpr fun v hv => ?_
    obtain ⟨e, he, rfl⟩ := List.mem_map.mp hv
    obtain ⟨k, hk', hkv⟩ := hk.2 e he
    rw [hkv]
    simpa using HandleMap.not_vhandleOf_lt (hk'.trans hk.1)
  rw [hprop, hcount, getCapHandles_count, hkeys]
  simp [HandleMap.getKeys, hlen, World.initial, HandleMap.new, tpm2MaxCapHandles]

end Tabrmd

/-!
## The vhandle counter runs out

Flushing an object does not give its vhandle back, so a client that creates and flushes one
object over and over spends the counter, and then `g_error ("vhandle rolled over!")` ends the
process.
-/

namespace Tabrmd

open HandleMap (vhandleOf maxHandleCount)

theorem resourceManagerProcessTpm2Command_seqEnv (w : World) (c : Connection) :
    ((w.maps c).handleCount < maxHandleCount →
      ∃ w₁ response, resourceManagerProcessTpm2Command seqEnv w (hashSequenceStart c) =
          .ok (sendResponse seqEnv w₁ response [(w.maps c).nextVhandle.1,
            (w.maps c).nextVhandle.1] c 0) ∧
        w₁.maps c = (w.maps c).nextVhandle.2.insert
          (handleMapEntryNew 0x80000000 (w.maps c).nextVhandle.1)) ∧
      (maxHandleCount ≤ (w.maps c).handleCount →
        resourceManagerProcessTpm2Command seqEnv w (hashSequenceStart c) =
          .error "vhandle rolled over!") := by
  have hq : resourceManagerQuotaCheck w (hashSequenceStart c) = tss2RcSuccess := rfl
  have hs : commandSpecialProcessing seqEnv w (hashSequenceStart c) = (none, w) := rfl
  have hl : loadContexts seqEnv ⟨w, hashSequenceStart c, []⟩ =
      .ok ⟨w, hashSequenceStart c, []⟩ := rfl
  have ht : handleType 0x80000000 = tpm2HtTransient := by decide
  have hc : (hashSequenceStart c).connection = c := rfl
  unfold resourceManagerProcessTpm2Command
  simp only [hq, hs, hl, ne_eq, not_true_eq_false, if_false]
  unfold resourceManagerCreateContextMapping createContextMappingTransient
  simp only [World.accessBrokerSendCommand, seqEnv, Option.getD_some, World.record_maps, hc, ht,
    if_true]
  refine ⟨fun hlt => ?_, fun hge => ?_⟩
  · rw [if_neg (HandleMap.nextVhandle_fst_ne_zero_of_lt hlt)]
    exact ⟨_, _, rfl, by simp⟩
  · rw [HandleMap.nextVhandle_of_le hge, if_pos rfl]

theorem resourceManagerProcessTpm2Command_flushContext (E : Env) {w : World} {c : Connection}
    {v : UInt32} (hv : (w.maps c).getKeys = [v]) (ht : handleType v = tpm2HtTransient) :
    ∃ w', resourceManagerProcessTpm2Command E w (flushContext c v) = .ok w' ∧
      (w'.maps c).entries = [] ∧ (w'.maps c).handleCount = (w.maps c).handleCount := by
  obtain ⟨e, l, he, rfl, hl⟩ := List.map_eq_cons_iff.mp hv
  obtain rfl := List.eq_nil_of_map_eq_nil hl
  have hq : resourceManagerQuotaCheck w (flushContext c e.vhandle) = tss2RcSuccess := rfl
  have hl : (w.maps c).vlookup e.vhandle = some e := by simp [HandleMap.vlookup, he]
  have hs : commandSpecialProcessing E w (flushContext c e.vhandle) =
      (some (tpm2ResponseNewRc c tss2RcSuccess), w.setMap c ((w.maps c).remove e.vhandle)) := by
    have hcode : (flushContext c e.vhandle).code = tpm2CcFlushContext := rfl
    unfold commandSpecialProcessing resourceManagerFlushContext
    have hconn : (flushContext c e.vhandle).connection = c := rfl
    rw [if_pos hcode, if_neg (not_not.mpr hcode), getFlushHandle_flushContext]
    simp [ht, hl, hconn]
  unfold resourceManagerProcessTpm2Command
  simp only [hq, hs, ne_eq, not_true_eq_false, if_false]
  refine ⟨_, rfl, ?_, ?_⟩ <;> simp [sendResponse_nil_maps, HandleMap.remove, he]

theorem resourceManagerProcessTpm2Command_hashSequenceStart_empty {w : World} {c : Connection}
    (he : (w.maps c).entries = []) (hlt : (w.maps c).handleCount < maxHandleCount) :
    ∃ w', resourceManagerProcessTpm2Command seqEnv w (hashSequenceStart c) = .ok w' ∧
      (w'.maps c).getKeys = [vhandleOf ((w.maps c).handleCount + 1)] ∧
      (w'.maps c).handleCount = (w.maps c).handleCount + 1 := by
  obtain ⟨w₁, response, hr, hm⟩ := (resourceManagerProcessTpm2Command_seqEnv w c).1 hlt
  have hk : SameKeys _ ((sendResponse seqEnv w₁ response
      [(w.maps c).nextVhandle.1, (w.maps c).nextVhandle.1] c 0).maps c) :=
    sendResponse_sameKeys seqEnv (show (0 : UInt32) &&& tpmaCcFlushed = 0 by decide) hm
  refine ⟨_, hr, ?_, ?_⟩
  · rw [HandleMap.getKeys, hk.1]
    simp [HandleMap.insert, he, HandleMap.nextVhandle, hlt, handleMapEntryNew]
  · rw [hk.2.1]
    simp [HandleMap.nextVhandle, hlt]

/-- `n` rounds of starting a hash sequence and flushing the vhandle it gets, from counter
value `k` on. -/
def cycleQueue (c : Connection) (k : Nat) : Nat → List (Option QueueItem)
  | 0 => []
  | n + 1 => some (.command (hashSequenceStart c)) ::
      some (.command (flushContext c (vhandleOf (k + 1)))) :: cycleQueue c (k + 1) n

/-- Each round leaves the map empty and the counter one further on; the sink gets a response
to each command. -/
theorem resourceManagerThread_cycleQueue (c : Connection) (n : Nat) :
    ∀ w : World, (w.maps c).entries = [] → (w.maps c).handleCount + n ≤ maxHandleCount →
      ∃ w', (∀ rest, resourceManagerThread seqEnv
            (cycleQueue c (w.maps c).handleCount n ++ rest) w =
          resourceManagerThread seqEnv rest w') ∧
        (w'.maps c).entries = [] ∧ (w'.maps c).handleCount = (w.maps c).handleCount + n ∧
        w'.sink.length = w.sink.length + 2 * n := by
  induction n with
  | zero => exact fun w he _ => ⟨w, fun _ => rfl, he, rfl, rfl⟩
  | succ n ih =>
    intro w he hn
    obtain ⟨w₁, h₁, hk₁, hc₁⟩ :=
      resourceManagerProcessTpm2Command_hashSequenceStart_empty he (by omega)
    obtain ⟨w₂, h₂, he₂, hc₂⟩ := resourceManagerProcessTpm2Command_flushContext seqEnv hk₁
      (HandleMap.handleType_vhandleOf (by omega))
    obtain ⟨w', hrun, he', hc', hs'⟩ := ih w₂ he₂ (by omega)
    obtain ⟨r₁, -, hs₁⟩ := resourceManagerProcessTpm2Command_sink seqEnv h₁
    obtain ⟨r₂, -, hs₂⟩ := resourceManagerProcessTpm2Command_sink seqEnv h₂
    refine ⟨w', fun rest => ?_, he', by omega, by simp [hs', hs₂, hs₁]; omega⟩
    simp only [cycleQueue, List.cons_append, resourceManagerThread, h₁, h₂]
    rw [hc₂, hc₁] at hrun
    exact hrun rest

/-- A client that starts a hash sequence and flushes it, `2^24 - 1` times over, holds at most
one object at a time; its next `TPM2_HashSequenceStart` finds the counter spent, and the
process ends in `g_error` without answering it. -/
theorem cycleQueue_rolls_over :
    ∃ w, resourceManagerThread seqEnv (cycleQueue ⟨1⟩ 0 maxHandleCount) (World.initial 27 64) =
        .ok w ∧ w.sink.length = 2 * maxHandleCount ∧ (w.maps ⟨1⟩).entries = [] ∧
      resourceManagerThread seqEnv (cycleQueue ⟨1⟩ 0 maxHandleCount ++
          [some (.command (hashSequenceStart ⟨1⟩))]) (World.initial 27 64) =
        .error "vhandle rolled over!" := by
  obtain ⟨w, hrun, he, hc, hs⟩ := resourceManagerThread_cycleQueue ⟨1⟩ maxHandleCount
    (World.initial 27 64) rfl le_rfl
  have hrun' : ∀ rest, resourceManagerThread seqEnv (cycleQueue ⟨1⟩ 0 maxHandleCount ++ rest)
      (World.initial 27 64) = resourceManagerThread seqEnv rest w := hrun
  refine ⟨w, by simpa using hrun' [], by simpa [World.initial] using hs, he, ?_⟩
  rw [hrun']
  simp only [resourceManagerThread]
  rw [(resourceManagerProcessTpm2Command_seqEnv w ⟨1⟩).2
    (by simp [hc, World.initial, HandleMap.new])]
end Tabrmd
