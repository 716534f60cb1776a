import Tabrmd.Transients

/-!
# One command's conversation with the TPM

The AccessBroker calls of one command come in three phases: loads, the client's command at
most once, then saves and flushes.  The TPM receives the client's command with each transient
replaced by the physical handle its load returned; over a run, a subsequence of the queued
commands, in order.
-/

namespace Tabrmd

/-! ## Phases of the AccessBroker log -/

/-- A call that loads a context: `context_load` of a transient, or a `ContextLoad` command
for a session. -/
def BrokerEvent.isLoad : BrokerEvent → Bool
  | .contextLoad _ _ | .sendContextLoad _ _ => true
  | _ => false

/-- A call that saves or flushes a context. -/
def BrokerEvent.isSave : BrokerEvent → Bool
  | .sendContextSave _ _ | .contextSaveflush _ _ | .contextFlush _ _ => true
  | _ => false

/-- The client's command that a call forwards to the TPM. -/
def BrokerEvent.sentCommand : BrokerEvent → Option Tpm2Command
  | .sendCommand command _ => some command
  | _ => none

theorem BrokerEvent.sentCommand_of_isLoad {e : BrokerEvent} (h : e.isLoad) :
    e.sentCommand = none := by
  cases e <;> simp_all [isLoad, sentCommand]

theorem BrokerEvent.sentCommand_of_isSave {e : BrokerEvent} (h : e.isSave) :
    e.sentCommand = none := by
  cases e <;> simp_all [isSave, sentCommand]

/-- `w'` extends the AccessBroker log of `w` by calls that all pass `p`. -/
def World.Appends (p : BrokerEvent → Prop) (w w' : World) : Prop :=
  ∃ calls, w'.log = w.log ++ calls ∧ ∀ e ∈ calls, p e

namespace World.Appends

variable {p : BrokerEvent → Prop} {w w₁ w₂ : World}

theorem refl (w : World) : World.Appends p w w := ⟨[], by simp, by simp⟩

theorem of_log_eq (h : w₁.log = w.log) : World.Appends p w w₁ := ⟨[], by simp [h], by simp⟩

theorem record (w : World) {e : BrokerEvent} (he : p e) : World.Appends p w (w.record e) :=
  ⟨[e], rfl, by simpa using he⟩

theorem trans (h₁ : World.Appends p w w₁) (h₂ : World.Appends p w₁ w₂) :
    World.Appends p w w₂ := by
  obtain ⟨c₁, h₁, hp₁⟩ := h₁
  obtain ⟨c₂, h₂, hp₂⟩ := h₂
  refine ⟨c₁ ++ c₂, by rw [h₂, h₁, List.append_assoc], fun e he => ?_⟩
  rcases List.mem_append.mp he with he | he
  · exact hp₁ e he
  · exact hp₂ e he

theorem of_trans_log_eq (h₁ : World.Appends p w w₁) (h₂ : w₂.log = w₁.log) :
    World.Appends p w w₂ :=
  h₁.trans (of_log_eq h₂)

theorem mono (h : World.Appends p w w₁) {q : BrokerEvent → Prop} (hq : ∀ e, p e → q e) :
    World.Appends q w w₁ :=
  h.imp fun _ h => ⟨h.1, fun e he => hq e (h.2 e he)⟩

theorem sentCommands_eq_nil (h : World.Appends p w w₁)
    (hp : ∀ e, p e → e.sentCommand = none) :
    ∃ calls, w₁.log = w.log ++ calls ∧ calls.filterMap BrokerEvent.sentCommand = [] := by
  obtain ⟨calls, hlog, hcalls⟩ := h
  exact ⟨calls, hlog, List.filterMap_eq_nil_iff.mpr fun e he => hp e (hcalls e he)⟩

end World.Appends

variable (E : Env)

/-! ## The save phase -/

section

variable {p : BrokerEvent → Prop}

theorem resourceManagerSaveSessionContext_appends (w : World) (entry : SessionEntry)
    (hp : entry.state = .loaded → ∀ r rc,
      p (.sendContextSave entry.handle r) ∧ p (.contextFlush entry.handle rc)) :
    w.Appends p (resourceManagerSaveSessionContext E w entry) := by
  rcases resourceManagerSaveSessionContext_cases E w entry with
    ⟨-, hr⟩ | ⟨hl, ⟨response, -, hr⟩ | ⟨rc, -, hr⟩⟩ <;> rw [hr]
  · exact .refl w
  · exact (World.Appends.record w (hp hl _ 0).1).of_trans_log_eq rfl
  · exact ((World.Appends.record w (hp hl _ 0).1).trans
      (.record _ (hp hl (.error rc) _).2)).of_trans_log_eq rfl

theorem saveSessionContexts_appends (w : World)
    (hp : ∀ entry ∈ w.sessionList.sessionEntrySlist, entry.state = .loaded → ∀ r rc,
      p (.sendContextSave entry.handle r) ∧ p (.contextFlush entry.handle rc)) :
    w.Appends p (saveSessionContexts E w) :=
  List.foldlRecOn (motive := w.Appends p) _ _ _ (.refl w) fun w' hw' entry he =>
    hw'.trans (resourceManagerSaveSessionContext_appends E w' entry (hp entry he))

theorem resourceManagerFlushsaveContext_appends
    (hp : ∀ phandle r, p (.contextSaveflush phandle r)) (w : World) (c : Connection) (v : UInt32) :
    w.Appends p (resourceManagerFlushsaveContext E w c v) := by
  rcases resourceManagerFlushsaveContext_cases E w c v with
    ⟨hr, -⟩ | ⟨entry, -, -, ⟨rc, -, hr⟩ | ⟨ctx, -, hr⟩⟩ <;> rw [hr]
  · exact .refl w
  · exact .record w (hp _ _)
  · exact (World.Appends.record w (hp _ _)).of_trans_log_eq rfl

theorem postProcessLoadedTransients_appends (hp : ∀ phandle r, p (.contextSaveflush phandle r))
    (w : World) (L : List UInt32) (c : Connection) (attrs : UInt32) :
    w.Appends p (postProcessLoadedTransients E w L c attrs) := by
  unfold postProcessLoadedTransients
  split
  · exact List.foldlRecOn (motive := w.Appends p) _ _ _ (.refl w)
      fun w' hw' v _ => hw'.trans (resourceManagerFlushsaveContext_appends E hp w' c v)
  · exact List.foldlRecOn (motive := w.Appends p) _ _ _ (.refl w)
      fun w' hw' v _ => hw'.of_trans_log_eq (removeEntryFromHandleMap_frame w' c v).2

/-- The calls of `send_response`: saves and flushes of the sessions `LOADED` when it begins,
and saves and flushes of transients. -/
theorem sendResponse_calls (w : World) (response : Tpm2Response) (L : List UInt32)
    (c : Connection) (attrs : UInt32)
    (hsave : ∀ entry ∈ w.sessionList.sessionEntrySlist, entry.state = .loaded → ∀ r rc,
      p (.sendContextSave entry.handle r) ∧ p (.contextFlush entry.handle rc))
    (hflush : ∀ phandle r, p (.contextSaveflush phandle r)) :
    w.Appends p (sendResponse E w response L c attrs) :=
  (World.Appends.of_log_eq rfl : w.Appends p (w.sinkEnqueue (.response response))).trans
    ((saveSessionContexts_appends E (w.sinkEnqueue (.response response)) hsave).trans
      (postProcessLoadedTransients_appends E hflush _ L c attrs))

end

theorem sendResponse_appends (w : World) (response : Tpm2Response) (L : List UInt32)
    (c : Connection) (attrs : UInt32) :
    w.Appends (·.isSave) (sendResponse E w response L c attrs) :=
  sendResponse_calls E w response L c attrs (fun _ _ _ _ _ => ⟨rfl, rfl⟩) fun _ _ => rfl

/-! ## The load phase and the handles the TPM receives -/

/-- The entry `resource_manager_load_handles` loads for a handle of the handle area: the one
the caller's map holds under it, when it is a transient. -/
def HandleMap.transientEntry (map : HandleMap) (v : UInt32) : Option HandleMapEntry :=
  if handleType v = tpm2HtTransient then map.vlookup v else none

/-- What the TPM receives in a slot of the handle area that held `v`, given the entry loaded
for it and the calls of the load phase: a handle with no entry goes through as it is; one with
an entry becomes the physical handle a `context_load` of the entry's context returned, or
stays as it is when that load failed. -/
def SlotVirtualized (loads : List BrokerEvent) (v p : UInt32) : Option HandleMapEntry → Prop
  | none => p = v
  | some entry => .contextLoad entry.context (.ok p) ∈ loads ∨
      p = v ∧ ∃ rc, .contextLoad entry.context (.error rc) ∈ loads

theorem SlotVirtualized.mono {loads loads' : List BrokerEvent} (hl : loads ⊆ loads')
    {v p : UInt32} {o : Option HandleMapEntry} (h : SlotVirtualized loads v p o) :
    SlotVirtualized loads' v p o := by
  cases o with
  | none => exact h
  | some entry =>
    rcases h with h | ⟨rfl, rc, h⟩
    · exact .inl (hl h)
    · exact .inr ⟨rfl, rc, hl h⟩

/-- The command the TPM receives for the client's `command`, given the client's map and the
calls of the load phase: the same command, each handle virtualised. -/
structure Virtualizes (map : HandleMap) (loads : List BrokerEvent)
    (command sent : Tpm2Command) : Prop where
  connection : sent.connection = command.connection
  code : sent.code = command.code
  attributes : sent.attributes = command.attributes
  auths : sent.auths = command.auths
  parameters : sent.parameters = command.parameters
  handles : List.Forall₂ (fun v p => SlotVirtualized loads v p (map.transientEntry v))
    command.handles sent.handles

theorem Virtualizes.mono {map : HandleMap} {loads loads' : List BrokerEvent}
    {command sent : Tpm2Command} (hl : loads ⊆ loads') (h : Virtualizes map loads command sent) :
    Virtualizes map loads' command sent :=
  { h with handles := h.handles.imp fun _ _ hs => hs.mono hl }

/-- While the handles load, the caller's map holds the contexts of `map` under the same
vhandles: loading only records physical handles. -/
def ContextsKept (map : HandleMap) (cs : CommandState) : Prop :=
  ∀ v, ((cs.world.maps cs.command.connection).vlookup v).map HandleMapEntry.context =
    (map.vlookup v).map HandleMapEntry.context

theorem resourceManagerLoadTransient_of_vlookup (cs : CommandState) (handle : UInt32) (i : Nat)
    {entry : HandleMapEntry}
    (hv : (cs.world.maps cs.command.connection).vlookup handle = some entry) :
    (∃ rc, (resourceManagerLoadTransient E cs handle i).2 =
        ⟨cs.world.record (.contextLoad entry.context (.error rc)), cs.command,
          if rc ≠ tss2RcSuccess then cs.transientSlist
          else entry.vhandle :: cs.transientSlist⟩) ∨
      ∃ phandle, (resourceManagerLoadTransient E cs handle i).2 =
        ⟨(cs.world.record (.contextLoad entry.context (.ok phandle))).setMap
            cs.command.connection
            ((cs.world.maps cs.command.connection).update entry.vhandle phandle id),
          cs.command.setHandle phandle i, entry.vhandle :: cs.transientSlist⟩ := by
  unfold resourceManagerLoadTransient
  rw [hv]
  cases hr : E.contextLoad cs.world.log entry.context with
  | error rc =>
    refine .inl ⟨rc, ?_⟩
    simp only [resourceManagerVirtToPhys, World.accessBrokerContextLoad, hr]
    split_ifs <;> rfl
  | ok phandle =>
    refine .inr ⟨phandle, ?_⟩
    simp [resourceManagerVirtToPhys, World.accessBrokerContextLoad, hr, tss2RcSuccess]

/-- A call that loads a transient loads the context of an entry of `map`; other calls load no
transient. -/
def BrokerEvent.LoadsFrom (map : HandleMap) : BrokerEvent → Prop
  | .contextLoad context _ => ∃ entry ∈ map.entries, entry.context = context
  | _ => True

theorem resourceManagerLoadSessionFromHandle_appends {p : BrokerEvent → Prop}
    (hp : ∀ context r, p (.sendContextLoad context r)) (w : World) (c : Connection) (h : UInt32)
    (f : Bool) : w.Appends p (resourceManagerLoadSessionFromHandle E w c h f).2 := by
  rcases resourceManagerLoadSessionFromHandle_cases E w c h f with
    hr | ⟨entry, -, -, -, ⟨rc, -, hr⟩ | ⟨response, -, hr⟩⟩ <;> rw [hr]
  · exact .refl w
  all_goals exact (World.Appends.record w (hp _ _)).of_trans_log_eq rfl

theorem resourceManagerLoadTransient_appends {p : BrokerEvent → Prop} (cs : CommandState)
    (handle : UInt32) (i : Nat)
    (hp : ∀ entry, (cs.world.maps cs.command.connection).vlookup handle = some entry →
      ∀ r, p (.contextLoad entry.context r)) :
    cs.world.Appends p (resourceManagerLoadTransient E cs handle i).2.world := by
  rcases resourceManagerLoadTransient_cases E cs handle i with
    hr | ⟨entry, hv, ⟨rc, -, hr⟩ | ⟨phandle, -, hr⟩⟩ <;> rw [hr]
  · exact .refl _
  · exact .record _ (hp entry hv _)
  · exact (World.Appends.record _ (hp entry hv _)).of_trans_log_eq rfl

theorem loadHandlesBody_contextsKept (map : HandleMap) {acc : UInt32 × CommandState}
    (ih : Nat × UInt32) (hmap : ContextsKept map acc.2) :
    ContextsKept map (loadHandlesBody E acc ih).2 ∧
      acc.2.world.Appends (BrokerEvent.LoadsFrom map) (loadHandlesBody E acc ih).2.world := by
  unfold loadHandlesBody
  dsimp only
  split_ifs
  · refine ⟨?_, resourceManagerLoadTransient_appends E _ _ _ fun entry hv _ => ?_⟩
    · rcases resourceManagerLoadTransient_cases E acc.2 ih.2 ih.1 with
        hr | ⟨entry, -, ⟨rc, -, hr⟩ | ⟨phandle, -, hr⟩⟩ <;> rw [hr]
      · exact hmap
      · exact hmap
      · intro v
        simp only [ContextsKept, World.setMap_maps, World.record_maps,
          Tpm2Command.setHandle_connection, Function.update_same, HandleMap.vlookup_update,
          Option.map_map] at hmap ⊢
        rw [← hmap v]
        congr 1
        funext e
        simp only [Function.comp_apply]
        split_ifs <;> rfl
    · obtain ⟨e₀, he₀, hctx⟩ : ∃ e₀, map.vlookup ih.2 = some e₀ ∧ e₀.context = entry.context :=
        Option.map_eq_some'.mp (by rw [← hmap ih.2, hv]; rfl)
      exact ⟨e₀, (HandleMap.vlookup_eq_some he₀).1, hctx⟩
  · refine ⟨fun v => ?_, resourceManagerLoadSessionFromHandle_appends E (fun _ _ => trivial) _ _ _ _⟩
    simp only [ContextsKept, (resourceManagerLoadSessionFromHandle_frame E _ _ _ _).1]
    exact hmap v
  · exact ⟨hmap, .refl _⟩

theorem loadHandlesBody_virtualizes (map : HandleMap) {acc : UInt32 × CommandState} {k : Nat}
    {x : UInt32} {D l : List UInt32} (hD : acc.2.command.handles = D ++ x :: l)
    (hk : D.length = k) (hmap : ContextsKept map acc.2) :
    let cs := (loadHandlesBody E acc (k, x)).2
    ∃ loads p, cs.world.log = acc.2.world.log ++ loads ∧ (∀ e ∈ loads, e.isLoad) ∧
      SlotVirtualized loads x p (map.transientEntry x) ∧
      cs.command = { acc.2.command with handles := D ++ p :: l } := by
  have hsame : { acc.2.command with handles := D ++ x :: l } = acc.2.command := by
    rw [← hD]
  unfold loadHandlesBody
  dsimp only
  split_ifs with ht hs
  · have hentry : map.transientEntry x = map.vlookup x := if_pos ht
    cases hv : (acc.2.world.maps acc.2.command.connection).vlookup x with
    | none =>
      have hnone : map.vlookup x = none := by simpa [hv] using (hmap x).symm
      have hr : (resourceManagerLoadTransient E acc.2 x k).2 = acc.2 := by
        simp [resourceManagerLoadTransient, hv]
      rw [hr, hentry, hnone]
      exact ⟨[], x, by simp, by simp, rfl, hsame.symm⟩
    | some entry =>
      obtain ⟨e₀, he₀, hctx⟩ : ∃ e₀, map.vlookup x = some e₀ ∧ e₀.context = entry.context :=
        Option.map_eq_some'.mp (by rw [← hmap x, hv]; rfl)
      rw [hentry, he₀]
      rcases resourceManagerLoadTransient_of_vlookup E acc.2 x k hv with
        ⟨rc, hr⟩ | ⟨phandle, hr⟩ <;> rw [hr]
      · exact ⟨[_], x, rfl, by simp [BrokerEvent.isLoad], .inr ⟨rfl, rc, by simp [hctx]⟩,
          hsame.symm⟩
      · exact ⟨[_], phandle, rfl, by simp [BrokerEvent.isLoad], .inl (by simp [hctx]),
          by simp [Tpm2Command.setHandle, hD, List.set_append_right, ← hk]⟩
  · have hentry : map.transientEntry x = none := if_neg ht
    obtain ⟨loads, hlog, hloads⟩ := resourceManagerLoadSessionFromHandle_appends E (p := (·.isLoad))
      (fun _ _ => rfl) acc.2.world acc.2.command.connection x false
    exact ⟨loads, x, hlog, hloads, by rw [hentry]; rfl, hsame.symm⟩
  · exact ⟨[], x, by simp, by simp, by rw [show map.transientEntry x = none from if_neg ht]; rfl,
      hsame.symm⟩

theorem foldl_loadHandlesBody_virtualizes (map : HandleMap) (l : List UInt32) :
    ∀ (k : Nat) (acc : UInt32 × CommandState) (D : List UInt32),
      acc.2.command.handles = D ++ l → D.length = k → ContextsKept map acc.2 →
      let cs := ((l.enumFrom k).foldl (loadHandlesBody E) acc).2
      ∃ loads sent, cs.world.log = acc.2.world.log ++ loads ∧ (∀ e ∈ loads, e.isLoad) ∧
        List.Forall₂ (fun v p => SlotVirtualized loads v p (map.transientEntry v)) l sent ∧
        cs.command = { acc.2.command with handles := D ++ sent } := by
  induction l with
  | nil =>
    intro k acc D hD _ _
    exact ⟨[], [], by simp, by simp, .nil, by simp [← hD]⟩
  | cons x l ih =>
    intro k acc D hD hk hmap
    obtain ⟨loads₁, p, hlog₁, hl₁, hslot, hcmd⟩ := loadHandlesBody_virtualizes E map hD hk hmap
    have hmap₁ := (loadHandlesBody_contextsKept E map (k, x) hmap).1
    obtain ⟨loads₂, sent, hlog₂, hl₂, hsent, hcmd₂⟩ :=
      ih (k + 1) (loadHandlesBody E acc (k, x)) (D ++ [p]) (by simp [hcmd]) (by simp [hk]) hmap₁
    refine ⟨loads₁ ++ loads₂, p :: sent, by simp [List.enumFrom_cons, hlog₂, hlog₁],
      fun e he => ?_, .cons (hslot.mono (List.subset_append_left _ _))
        (hsent.imp fun _ _ h => h.mono (List.subset_append_right _ _)), ?_⟩
    · rcases List.mem_append.mp he with he | he
      · exact hl₁ e he
      · exact hl₂ e he
    · simp [List.enumFrom_cons, hcmd₂, hcmd]

theorem resourceManagerLoadAuthCallback_appends {p : BrokerEvent → Prop}
    (hp : ∀ context r, p (.sendContextLoad context r)) (cs : CommandState)
    (auth : TpmsAuthCommand) :
    cs.world.Appends p (resourceManagerLoadAuthCallback E cs auth).world := by
  unfold resourceManagerLoadAuthCallback
  split
  · exact resourceManagerLoadSessionFromHandle_appends E hp _ _ _ _
  · exact .refl _

/-- The load pass of a command: the TPM will receive the command with its handles
virtualised against the caller's map, after calls that only load. -/
theorem loadContexts_virtualizes {w : World} {command : Tpm2Command} {cs : CommandState}
    (h : loadContexts E ⟨w, command, []⟩ = .ok cs) :
    ∃ loads, cs.world.log = w.log ++ loads ∧ (∀ e ∈ loads, e.isLoad) ∧
      Virtualizes (w.maps command.connection) loads command cs.command := by
  have hpass : ∃ cs₁ loads sent, cs₁.world.log = w.log ++ loads ∧ (∀ e ∈ loads, e.isLoad) ∧
      List.Forall₂ (fun v p => SlotVirtualized loads v p
        ((w.maps command.connection).transientEntry v)) command.handles sent ∧
      cs₁.command = { command with handles := sent } ∧
      cs = if cs₁.command.auths ≠ [] then
        cs₁.command.auths.foldl (resourceManagerLoadAuthCallback E) cs₁ else cs₁ := by
    by_cases hn : 0 < command.handles.length
    · cases hr : resourceManagerLoadHandles E ⟨w, command, []⟩ with
      | error e => simp [loadContexts, hn, hr, Except.map] at h
      | ok r =>
        simp only [loadContexts, hn, hr, if_true, Except.map, Except.ok.injEq] at h
        unfold resourceManagerLoadHandles at hr
        split at hr
        · cases hr
        cases hr
        obtain ⟨loads, sent, hlog, hloads, hsent, hcmd⟩ :=
          foldl_loadHandlesBody_virtualizes E (w.maps command.connection) command.handles 0
            (tss2RcSuccess, ⟨w, command, []⟩) [] rfl rfl fun _ => rfl
        exact ⟨_, loads, sent, hlog, hloads, hsent, hcmd, h.symm⟩
    · have hnil : command.handles = [] := List.eq_nil_of_length_eq_zero (by omega)
      simp only [loadContexts, hn, if_false, Except.map, Except.ok.injEq] at h
      exact ⟨⟨w, command, []⟩, [], [], by simp, by simp, by rw [hnil]; exact .nil,
        by simp [← hnil], h.symm⟩
  obtain ⟨cs₁, loads₁, sent, hlog₁, hloads₁, hsent, hcmd, hcs⟩ := hpass
  obtain ⟨hcmd₂, loads₂, hlog₂, hloads₂⟩ :
      cs.command = cs₁.command ∧ cs₁.world.Appends (·.isLoad) cs.world := by
    rw [hcs]
    split
    · exact List.foldlRecOn (motive := fun cs₂ : CommandState =>
        cs₂.command = cs₁.command ∧ cs₁.world.Appends (·.isLoad) cs₂.world)
        _ _ _ ⟨rfl, .refl _⟩ fun cs₂ hcs₂ auth _ =>
          ⟨(resourceManagerLoadAuthCallback_frame E cs₂ auth).1.trans hcs₂.1,
            hcs₂.2.trans (resourceManagerLoadAuthCallback_appends E (fun _ _ => by rfl) cs₂ auth)⟩
    · exact ⟨rfl, .refl _⟩
  rw [hcmd₂, hcmd]
  refine ⟨loads₁ ++ loads₂, by rw [hlog₂, hlog₁, List.append_assoc], fun e he => ?_,
    ⟨rfl, rfl, rfl, rfl, rfl, hsent.imp fun _ _ h => h.mono (List.subset_append_left _ _)⟩⟩
  rcases List.mem_append.mp he with he | he
  · exact hloads₁ e he
  · exact hloads₂ e he

theorem resourceManagerSaveContextSession_of_none {w : World} {command : Tpm2Command}
    (h : (resourceManagerSaveContextSession w command).1 = none) :
    (resourceManagerSaveContextSession w command).2 = w := by
  unfold resourceManagerSaveContextSession at h ⊢
  dsimp only at h ⊢
  split <;> (try split_ifs) <;> simp_all

theorem resourceManagerLoadContextSession_of_none {w : World} {command : Tpm2Command}
    (h : (resourceManagerLoadContextSession w command).1 = none) :
    (resourceManagerLoadContextSession w command).2 = w := by
  unfold resourceManagerLoadContextSession at h ⊢
  split
  · rfl
  · dsimp only at h ⊢
    split <;> simp_all

theorem commandSpecialProcessing_of_none {w : World} {command : Tpm2Command}
    (h : (commandSpecialProcessing E w command).1 = none) :
    (commandSpecialProcessing E w command).2 = w ∨
      ∃ handle, (commandSpecialProcessing E w command).2 =
        w.setSessionList (w.sessionList.removeHandle handle) := by
  rcases commandSpecialProcessing_cases E w command with
    hw | ⟨hf, handle, hh, ht, -⟩ | ⟨-, handle, -, -, hw⟩ | ⟨hc, hs, hw⟩ | ⟨hc, -⟩
  · exact .inl hw
  · simp only [commandSpecialProcessing, hf, if_true, resourceManagerFlushContext,
      ne_eq, not_true_eq_false, if_false, hh, ht] at h
    split at h <;> cases h
  · exact .inr ⟨handle, hw⟩
  · have hf : command.code ≠ tpm2CcFlushContext := by rw [hc]; decide
    simp only [commandSpecialProcessing, if_neg hf, if_pos hc, resourceManagerSaveContext,
      if_pos hs] at h
    exact .inl (hw.trans (resourceManagerSaveContextSession_of_none h))
  · have hf : command.code ≠ tpm2CcFlushContext := by rw [hc]; decide
    have hs : command.code ≠ tpm2CcContextSave := by rw [hc]; decide
    simp only [commandSpecialProcessing, if_neg hf, if_neg hs, if_pos hc,
      resourceManagerLoadContext] at h ⊢
    split_ifs at h ⊢
    · exact .inl (resourceManagerLoadContextSession_of_none h)
    · exact .inl rfl

theorem commandSpecialProcessing_maps_of_none {w : World} {command : Tpm2Command}
    (h : (commandSpecialProcessing E w command).1 = none) :
    (commandSpecialProcessing E w command).2.maps = w.maps := by
  rcases commandSpecialProcessing_of_none E h with hw | ⟨handle, hw⟩ <;> rw [hw]
  rfl

/-! ## One command -/

/-- The AccessBroker calls of one command, in order: calls that load contexts, then the
command itself, sent once with its handles virtualised against the caller's map as it was
when the command arrived, or not sent at all (and nothing loaded) when the quota check or
special processing answers it, then calls that save and flush. -/
theorem resourceManagerProcessTpm2Command_conversation {w w' : World} {command : Tpm2Command}
    (h : resourceManagerProcessTpm2Command E w command = .ok w') :
    ∃ loads sent saves, w'.log = w.log ++ loads ++ sent ++ saves ∧
      (∀ e ∈ loads, e.isLoad) ∧ (∀ e ∈ saves, e.isSave) ∧
      ((resourceManagerQuotaCheck w command ≠ tss2RcSuccess ∨
          (commandSpecialProcessing E w command).1.isSome) ∧ sent = [] ∧ loads = [] ∨
        resourceManagerQuotaCheck w command = tss2RcSuccess ∧
          (commandSpecialProcessing E w command).1 = none ∧
          ∃ tpmCommand result, sent = [.sendCommand tpmCommand result] ∧
            Virtualizes (w.maps command.connection) loads command tpmCommand) := by
  rcases resourceManagerProcessTpm2Command_cases E h with
    ⟨hq, rfl⟩ | ⟨-, response, hs, rfl⟩ | ⟨hq, hs, cs, r, hcs, hmap, rfl⟩
  · obtain ⟨saves, hlog, hsaves⟩ := sendResponse_appends E w
      (tpm2ResponseNewRc command.connection (resourceManagerQuotaCheck w command)) []
      command.connection command.attributes
    exact ⟨[], [], saves, by simp [hlog], by simp, hsaves, .inl ⟨.inl hq, rfl, rfl⟩⟩
  · obtain ⟨saves, hlog, hsaves⟩ := sendResponse_appends E
      (commandSpecialProcessing E w command).2 response [] command.connection command.attributes
    rw [commandSpecialProcessing_log] at hlog
    exact ⟨[], [], saves, by simp [hlog], by simp, hsaves,
      .inl ⟨.inr (Option.isSome_iff_exists.mpr ⟨_, hs⟩), rfl, rfl⟩⟩
  · obtain ⟨loads, hlog₁, hloads, hvirt⟩ := loadContexts_virtualizes E hcs
    rw [commandSpecialProcessing_maps_of_none E hs] at hvirt
    obtain ⟨saves, hlog₂, hsaves⟩ := sendResponse_appends E r.2.2 r.1 r.2.1 command.connection
      command.attributes
    refine ⟨loads, [.sendCommand cs.command (E.sendCommand cs.world.log cs.command)], saves, ?_,
      hloads, hsaves, .inr ⟨hq, hs, cs.command, _, rfl, hvirt⟩⟩
    rw [hlog₂, resourceManagerCreateContextMapping_log hmap]
    simp [World.accessBrokerSendCommand, hlog₁, commandSpecialProcessing_log]

theorem loadContexts_loadsFrom {w : World} {command : Tpm2Command} {cs : CommandState}
    (h : loadContexts E ⟨w, command, []⟩ = .ok cs) :
    w.Appends (BrokerEvent.LoadsFrom (w.maps command.connection)) cs.world :=
  (loadContexts_rec E (fun cs₂ => ContextsKept (w.maps command.connection) cs₂ ∧
      w.Appends (BrokerEvent.LoadsFrom (w.maps command.connection)) cs₂.world)
    (fun acc ih hacc =>
      have hs := loadHandlesBody_contextsKept E _ ih hacc.1
      ⟨hs.1, hacc.2.trans hs.2⟩)
    (fun cs₂ auth hcs => by
      obtain ⟨hcmd, -, hmaps, -⟩ := resourceManagerLoadAuthCallback_frame E cs₂ auth
      refine ⟨fun v => ?_, hcs.2.trans (resourceManagerLoadAuthCallback_appends E
        (fun _ _ => trivial) cs₂ auth)⟩
      rw [hcmd, hmaps]
      exact hcs.1 v)
    h ⟨fun _ => rfl, .refl w⟩).2

/-- Whatever state it starts from and whatever the AccessBroker answers, every `context_load`
a command makes loads the saved context of a transient in the caller's own `HandleMap` as the
command found it, never one of another connection. -/
theorem resourceManagerProcessTpm2Command_transientLoads {w w' : World} {command : Tpm2Command}
    (h : resourceManagerProcessTpm2Command E w command = .ok w') :
    ∃ calls, w'.log = w.log ++ calls ∧ ∀ context result,
      BrokerEvent.contextLoad context result ∈ calls →
        ∃ entry ∈ (w.maps command.connection).entries, entry.context = context := by
  let map := w.maps command.connection
  have hsend : ∀ (w₁ : World) response L, w₁.Appends (BrokerEvent.LoadsFrom map)
      (sendResponse E w₁ response L command.connection command.attributes) :=
    fun w₁ response L => sendResponse_calls E w₁ response L _ _
      (fun _ _ _ _ _ => ⟨trivial, trivial⟩) fun _ _ => trivial
  have hspecial : w.Appends (BrokerEvent.LoadsFrom map) (commandSpecialProcessing E w command).2 :=
    .of_log_eq (commandSpecialProcessing_log E w command)
  obtain ⟨calls, hlog, hcalls⟩ : w.Appends (BrokerEvent.LoadsFrom map) w' := by
    rcases resourceManagerProcessTpm2Command_cases E h with
      ⟨-, rfl⟩ | ⟨-, response, -, rfl⟩ | ⟨-, hs, cs, r, hcs, hmap, rfl⟩
    · exact hsend w _ []
    · exact hspecial.trans (hsend _ response [])
    · have hl := loadContexts_loadsFrom E hcs
      rw [commandSpecialProcessing_maps_of_none E hs] at hl
      have hsent : cs.world.Appends (BrokerEvent.LoadsFrom map)
          (cs.world.accessBrokerSendCommand E cs.command).2 := .record cs.world trivial
      exact (hspecial.trans hl).trans
        ((hsent.of_trans_log_eq (resourceManagerCreateContextMapping_log hmap)).trans (hsend _ _ _))
  exact ⟨calls, hlog, fun _ _ hm => hcalls _ hm⟩

/-- After `createPrimary`, naming the new object twice loads its context from the caller's
map, twice. -/
theorem certifyTwice_transientLoads :
    ∃ w w', resourceManagerThread certifyEnv (certifyQueue.take 1) (World.initial 3 3) = .ok w ∧
      resourceManagerProcessTpm2Command certifyEnv w (certifyTwice ⟨1⟩ 0x80000001) = .ok w' ∧
      ∃ calls, w'.log = w.log ++ calls ∧ ∀ context result,
        BrokerEvent.contextLoad context result ∈ calls →
          ∃ entry ∈ (w.maps (certifyTwice ⟨1⟩ 0x80000001).connection).entries,
            entry.context = context := by
  obtain ⟨w, hrun, hok⟩ : ∃ w, resourceManagerThread certifyEnv (certifyQueue.take 1)
      (World.initial 3 3) = .ok w ∧
      (resourceManagerProcessTpm2Command certifyEnv w (certifyTwice ⟨1⟩ 0x80000001)).isOk :=
    exists_ok_of_decide (by decide)
  obtain ⟨w', hw'⟩ := exists_ok_of_isOk hok
  exact ⟨w, w', hrun, hw', resourceManagerProcessTpm2Command_transientLoads certifyEnv hw'⟩

/-! ## Control messages -/

theorem connectionCloseSessionCallback_appends {w w' : World} {c : Connection}
    {entry : SessionEntry} (h : connectionCloseSessionCallback E c w entry = .ok w') :
    w.Appends (·.isSave) w' := by
  unfold connectionCloseSessionCallback at h
  split_ifs at h
  · cases h
    exact .refl w
  dsimp only at h
  split at h
  · cases h
    exact List.foldlRecOn (motive := w.Appends (·.isSave)) _ _ _ (.of_log_eq rfl)
      fun w' hw' e _ => hw'.trans (.record w' (by rfl))
  · cases h
    exact (World.Appends.record w (by rfl)).of_trans_log_eq rfl
  · cases h

theorem resourceManagerProcessControl_appends {w : World} {msg : ControlMessage}
    {r : Bool × World} (h : resourceManagerProcessControl E w msg = .ok r) :
    w.Appends (·.isSave) r.2 := by
  unfold resourceManagerProcessControl at h
  split at h
  · cases h
    exact .of_log_eq rfl
  · rename_i c
    cases hr : resourceManagerRemoveConnection E w c with
    | error e => simp [hr, Except.map] at h
    | ok w₁ =>
      simp only [hr, Except.map, Except.ok.injEq] at h
      subst h
      exact (foldlM_except_rec (w.Appends (·.isSave))
        (fun _ _ _ _ hb hf => hb.trans (connectionCloseSessionCallback_appends E hf))
        (.refl w) hr).of_trans_log_eq rfl
  · cases h
    exact .refl w

/-! ## Runs of the thread -/

/-- The client commands of a queue, in queue order. -/
def queuedCommands : List (Option QueueItem) → List Tpm2Command
  | [] => []
  | some (.command command) :: rest => command :: queuedCommands rest
  | _ :: rest => queuedCommands rest

theorem resourceManagerProcessTpm2Command_sentCommands {w w' : World} {command : Tpm2Command}
    (h : resourceManagerProcessTpm2Command E w command = .ok w') :
    ∃ calls, w'.log = w.log ++ calls ∧
      (calls.filterMap BrokerEvent.sentCommand = [] ∨
        ∃ sent, calls.filterMap BrokerEvent.sentCommand = [sent] ∧
          Virtualizes (w.maps command.connection) calls command sent) := by
  obtain ⟨loads, sent, saves, hlog, hloads, hsaves, hsent⟩ :=
    resourceManagerProcessTpm2Command_conversation E h
  have hl : loads.filterMap BrokerEvent.sentCommand = [] :=
    List.filterMap_eq_nil_iff.mpr fun e he => BrokerEvent.sentCommand_of_isLoad (hloads e he)
  have hs : saves.filterMap BrokerEvent.sentCommand = [] :=
    List.filterMap_eq_nil_iff.mpr fun e he => BrokerEvent.sentCommand_of_isSave (hsaves e he)
  refine ⟨loads ++ sent ++ saves, by simp [hlog], ?_⟩
  rcases hsent with ⟨-, rfl, -⟩ | ⟨-, -, tpmCommand, result, rfl, hvirt⟩
  · exact .inl (by simp [hl, hs])
  · exact .inr ⟨tpmCommand, by simp [hl, hs, BrokerEvent.sentCommand],
      hvirt.mono (List.subset_append_of_subset_left _ (List.subset_append_left _ _))⟩

/-- A run of `resource_manager_thread` that returns, whatever the interleaving of the
connections' messages and whatever the TPM answered: the client commands the TPM received
are some of the queued commands, in queue order, each once, each virtualised against its
caller's map; nothing else reached the TPM as a client command. -/
theorem resourceManagerThread_sentCommands {queue : List (Option QueueItem)} {w w' : World}
    (h : resourceManagerThread E queue w = .ok w') :
    ∃ calls forwarded, w'.log = w.log ++ calls ∧ forwarded.Sublist (queuedCommands queue) ∧
      List.Forall₂ (fun command sent => ∃ map loads, Virtualizes map loads command sent)
        forwarded (calls.filterMap BrokerEvent.sentCommand) := by
  induction queue generalizing w with
  | nil => cases h; exact ⟨[], [], by simp, .slnil, .nil⟩
  | cons item rest ih =>
    match item, h with
    | none, h => cases h; exact ⟨[], [], by simp, List.nil_sublist _, .nil⟩
    | some (.command command), h =>
      simp only [resourceManagerThread] at h
      split at h
      · cases h
      rename_i w₁ h₁
      obtain ⟨calls₁, hlog₁, hsent₁⟩ := resourceManagerProcessTpm2Command_sentCommands E h₁
      obtain ⟨calls, forwarded, hlog, hsub, hfw⟩ := ih h
      refine ⟨calls₁ ++ calls, ?_⟩
      rcases hsent₁ with hnil | ⟨sent, hsent, hvirt⟩
      · exact ⟨forwarded, by simp [hlog, hlog₁], hsub.cons _,
          by simpa [List.filterMap_append, hnil] using hfw⟩
      · exact ⟨command :: forwarded, by simp [hlog, hlog₁], hsub.cons₂ _,
          by simpa [List.filterMap_append, hsent] using ⟨⟨_, _, hvirt⟩, hfw⟩⟩
    | some (.control msg), h =>
      simp only [resourceManagerThread] at h
      split at h
      · cases h
      rename_i r hr
      obtain ⟨calls₁, hlog₁, hnil⟩ := (resourceManagerProcessControl_appends E hr).sentCommands_eq_nil
        fun _ he => BrokerEvent.sentCommand_of_isSave he
      split at h
      · obtain ⟨calls, forwarded, hlog, hsub, hfw⟩ := ih h
        exact ⟨calls₁ ++ calls, forwarded, by simp [hlog, hlog₁], hsub,
          by simpa [List.filterMap_append, hnil] using hfw⟩
      · cases h
        exact ⟨calls₁, [], hlog₁, List.nil_sublist _, by simp [hnil]⟩
    | some .other, h => exact ih h

/-- The two commands of `certifyQueue`, each forwarded. -/
theorem certifyQueue_sentCommands :
    ∃ w, resourceManagerThread certifyEnv certifyQueue (World.initial 3 3) = .ok w ∧
      ∃ calls forwarded, w.log = (World.initial 3 3).log ++ calls ∧
        forwarded.Sublist (queuedCommands certifyQueue) ∧
        List.Forall₂ (fun command sent => ∃ map loads, Virtualizes map loads command sent)
          forwarded (calls.filterMap BrokerEvent.sentCommand) := by
  obtain ⟨w, hrun⟩ : ∃ w, resourceManagerThread certifyEnv certifyQueue (World.initial 3 3) =
      .ok w := exists_ok_of_isOk (by decide)
  exact ⟨w, hrun, resourceManagerThread_sentCommands certifyEnv hrun⟩

end Tabrmd

/-!
## The response a client receives

The client gets the TPM's answer with a new transient replaced by the map's next vhandle, which
the map binds to the new object at the end of the command unless `TPMA_CC_FLUSHED` drops it.
-/

namespace Tabrmd

/-- The handle a client receives for a handle in a TPM response: a transient is replaced by
the vhandle the caller's map hands out next. -/
def HandleMap.responseHandle (map : HandleMap) (p : UInt32) : UInt32 :=
  if handleType p = tpm2HtTransient then map.nextVhandle.1 else p

theorem HandleMap.nextVhandle_fst_congr {m m' : HandleMap}
    (h : m'.handleCount = m.handleCount) : m'.nextVhandle.1 = m.nextVhandle.1 := by
  simp only [HandleMap.nextVhandle, h]
  split_ifs <;> rfl

theorem HandleMap.responseHandle_congr {m m' : HandleMap}
    (h : m'.handleCount = m.handleCount) : m'.responseHandle = m.responseHandle := by
  funext p
  simp only [HandleMap.responseHandle, HandleMap.nextVhandle_fst_congr h]

theorem HandleMap.vlookup_insert_new (map : HandleMap) (p v : UInt32) :
    (map.insert (handleMapEntryNew p v)).vlookup v = some (handleMapEntryNew p v) := by
  simp [HandleMap.vlookup, HandleMap.insert, handleMapEntryNew]

/-- What a map holds under the vhandle of an object the TPM created under `p`: the object
still loaded, with no saved context, or saved, with a context that a `context_saveflush` of
`p` returned. -/
def Holds (p : UInt32) (log : List BrokerEvent) : Option HandleMapEntry → Prop
  | none => False
  | some e => e.phandle = p ∧ e.context = TpmsContext.empty ∨
      e.phandle = 0 ∧ .contextSaveflush p (.ok e.context) ∈ log

theorem Holds.mono {p : UInt32} {log log' : List BrokerEvent} (hl : log ⊆ log')
    {o : Option HandleMapEntry} (h : Holds p log o) : Holds p log' o := by
  cases o with
  | none => exact h
  | some e =>
    rcases h with h | ⟨h0, h⟩
    · exact .inl h
    · exact .inr ⟨h0, hl h⟩

/-- The response a client receives for a command the TPM answered with `result`, given the
caller's map when the command arrived and the world after the command. -/
def AnswersWith (map : HandleMap) (command : Tpm2Command) (w' : World) :
    Except UInt32 TpmResponse → Tpm2Response → Prop
  | .error rc, response => response = tpm2ResponseNewRc command.connection rc
  | .ok tpm, response => response.code = tpm.code ∧ response.parameters = tpm.parameters ∧
      response.handle = tpm.handle.map map.responseHandle ∧
      ∀ p, tpm.handle = some p → handleType p = tpm2HtTransient →
        if command.attributes &&& tpmaCcFlushed = 0 then
          Holds p w'.log ((w'.maps command.connection).vlookup map.nextVhandle.1)
        else (w'.maps command.connection).vlookup map.nextVhandle.1 = none

variable (E : Env)

/-! ## Mapping the response -/

theorem resourceManagerCreateContextMapping_response {w : World} {response : Tpm2Response}
    {L : List UInt32} {r : Tpm2Response × List UInt32 × World}
    (h : resourceManagerCreateContextMapping w response L = .ok r) :
    r.1.connection = response.connection ∧ r.1.code = response.code ∧
      r.1.parameters = response.parameters ∧
      r.1.handle = response.handle.map (w.maps response.connection).responseHandle := by
  unfold resourceManagerCreateContextMapping at h
  split at h
  · cases h
    simp_all
  rename_i handle hh
  split_ifs at h with ht hs
  · unfold createContextMappingTransient at h
    dsimp only at h
    split_ifs at h
    cases h
    simp [Tpm2Response.setHandle, hh, HandleMap.responseHandle, ht]
  · cases h
    simp [hh, HandleMap.responseHandle, ht]
  · cases h
    simp [hh, HandleMap.responseHandle, ht]

theorem resourceManagerCreateContextMapping_holds {w : World} {response : Tpm2Response}
    {L : List UInt32} {r : Tpm2Response × List UInt32 × World}
    (h : resourceManagerCreateContextMapping w response L = .ok r) {p : UInt32}
    (hp : response.handle = some p) (ht : handleType p = tpm2HtTransient) :
    let v := (w.maps response.connection).nextVhandle.1
    handleType v = tpm2HtTransient ∧ r.2.1 = v :: v :: L ∧
      Holds p r.2.2.log ((r.2.2.maps response.connection).vlookup v) := by
  unfold resourceManagerCreateContextMapping at h
  simp only [hp, if_pos ht] at h
  unfold createContextMappingTransient at h
  dsimp only at h
  split_ifs at h with hz
  cases h
  obtain ⟨hlt, hnext⟩ := HandleMap.nextVhandle_fst_ne_zero hz
  refine ⟨by rw [hnext]; exact HandleMap.handleType_vhandleOf hlt, by simp [handleMapEntryNew], ?_⟩
  rw [World.setMap_maps, Function.update_same, HandleMap.vlookup_insert_new]
  exact Or.inl ⟨by simp [handleMapEntryNew, hp], rfl⟩

/-! ## Saving the new object -/

theorem resourceManagerFlushsaveContext_holds {w : World} {c : Connection} {v p : UInt32}
    (u : UInt32) (h : Holds p w.log ((w.maps c).vlookup v)) :
    Holds p (resourceManagerFlushsaveContext E w c u).log
      (((resourceManagerFlushsaveContext E w c u).maps c).vlookup v) := by
  rcases resourceManagerFlushsaveContext_cases E w c u with
    ⟨hr, -⟩ | ⟨entry, hu, ht, ⟨rc, -, hr⟩ | ⟨ctx, -, hr⟩⟩ <;> rw [hr]
  · exact h
  · exact h.mono (by simp)
  · simp only [World.setMap_maps, World.record_maps, World.record_log, Function.update_same,
      HandleMap.vlookup_update]
    cases hv : (w.maps c).vlookup v with
    | none => rw [hv] at h; exact h.elim
    | some e =>
      rw [hv] at h
      by_cases heu : e.vhandle = u
      · have he : e = entry := HandleMap.eq_of_vhandle_eq (HandleMap.vlookup_eq_some hv).1
          (HandleMap.vlookup_eq_some hu).1 (heu.trans (HandleMap.vlookup_eq_some hu).2.symm)
        subst he
        rcases h with ⟨hph, -⟩ | ⟨h0, -⟩
        · simp only [Option.map_some', if_pos heu]
          exact .inr ⟨rfl, by simp [hph]⟩
        · rw [h0] at ht
          exact absurd ht (by decide)
      · simp only [Option.map_some', if_neg heu]
        exact h.mono (by simp)

theorem postProcessLoadedTransients_holds {w : World} {c : Connection} {v p : UInt32}
    (L : List UInt32) {attrs : UInt32} (hattrs : attrs &&& tpmaCcFlushed = 0)
    (h : Holds p w.log ((w.maps c).vlookup v)) :
    Holds p (postProcessLoadedTransients E w L c attrs).log
      (((postProcessLoadedTransients E w L c attrs).maps c).vlookup v) := by
  unfold postProcessLoadedTransients
  rw [if_pos hattrs]
  exact List.foldlRecOn (motive := fun w' : World => Holds p w'.log ((w'.maps c).vlookup v))
    _ _ _ h fun w' hw' u _ => resourceManagerFlushsaveContext_holds E u hw'

theorem postProcessLoadedTransients_removes {w : World} {c : Connection} {v : UInt32}
    {L : List UInt32} {attrs : UInt32} (hattrs : ¬attrs &&& tpmaCcFlushed = 0)
    (hv : handleType v = tpm2HtTransient) (hmem : v ∈ L) :
    ((postProcessLoadedTransients E w L c attrs).maps c).vlookup v = none := by
  have hstep : ∀ (w : World) u, (w.maps c).vlookup v = none →
      ((removeEntryFromHandleMap w c u).maps c).vlookup v = none := by
    intro w u h
    unfold removeEntryFromHandleMap
    split
    · simp only [World.setMap_maps, Function.update_same]
      exact List.find?_eq_none.mpr fun e he => by
        simpa using HandleMap.vlookup_eq_none h e (HandleMap.mem_remove.mp he).1
    · exact h
  induction L generalizing w with
  | nil => exact absurd hmem (List.not_mem_nil v)
  | cons u L ih =>
    rw [postProcessLoadedTransients_cons, if_neg hattrs]
    by_cases hu : u = v
    · subst hu
      unfold postProcessLoadedTransients
      rw [if_neg hattrs]
      refine List.foldlRecOn (motive := fun w' : World => (w'.maps c).vlookup u = none) _ _ _
        ?_ fun w' hw' u' _ => hstep w' u' hw'
      simp only [removeEntryFromHandleMap, if_pos hv, World.setMap_maps, Function.update_same]
      exact List.find?_eq_none.mpr fun e he => by simpa using (HandleMap.mem_remove.mp he).2
    · exact ih ((List.mem_cons.mp hmem).resolve_left (Ne.symm hu))

theorem sendResponse_holds {w : World} {c : Connection} {v p : UInt32} (response : Tpm2Response)
    (L : List UInt32) {attrs : UInt32} (hattrs : attrs &&& tpmaCcFlushed = 0)
    (h : Holds p w.log ((w.maps c).vlookup v)) :
    Holds p (sendResponse E w response L c attrs).log
      (((sendResponse E w response L c attrs).maps c).vlookup v) := by
  obtain ⟨hmaps, hlog⟩ := saveSessionContexts_frame E (w.sinkEnqueue (.response response))
  refine postProcessLoadedTransients_holds E L hattrs ?_
  rw [hmaps]
  exact h.mono hlog.subset

/-! ## One command -/

theorem sendCommand_not_mem_of_appends {w w' : World} (h : w.Appends (·.isSave) w')
    {tpmCommand : Tpm2Command} {result : Except UInt32 TpmResponse} :
    BrokerEvent.sendCommand tpmCommand result ∉ w'.log.drop w.log.length := by
  obtain ⟨calls, hlog, hcalls⟩ := h
  rw [hlog, List.drop_left]
  exact fun hm => absurd (hcalls _ hm) (by simp [BrokerEvent.isSave])

/-- The response of every command: exactly one, addressed to the caller, and, when the
command went to the TPM, the TPM's answer as `AnswersWith` describes it against the caller's
map when the command arrived. -/
theorem resourceManagerProcessTpm2Command_response {w w' : World} {command : Tpm2Command}
    (h : resourceManagerProcessTpm2Command E w command = .ok w') :
    ∃ response : Tpm2Response, w'.sink = w.sink ++ [.response response] ∧
      response.connection = command.connection ∧
      ∀ tpmCommand result, BrokerEvent.sendCommand tpmCommand result ∈ w'.log.drop w.log.length →
        AnswersWith (w.maps command.connection) command w' result response := by
  rcases resourceManagerProcessTpm2Command_cases E h with
    ⟨-, rfl⟩ | ⟨-, response, hs, rfl⟩ | ⟨-, hs, cs, r, hcs, hmap, rfl⟩
  · exact ⟨_, sendResponse_sink E _ _ _ _ _, rfl, fun _ _ hm =>
      absurd hm (sendCommand_not_mem_of_appends (sendResponse_appends E _ _ _ _ _))⟩
  · refine ⟨response, by rw [sendResponse_sink, commandSpecialProcessing_sink],
      commandSpecialProcessing_connection E hs, fun _ _ hm => absurd hm ?_⟩
    have := sendResponse_appends E (commandSpecialProcessing E w command).2 response []
      command.connection command.attributes
    rw [← commandSpecialProcessing_log E w command]
    exact sendCommand_not_mem_of_appends this
  · obtain ⟨loads, hlog₁, hloads, hvirt⟩ := loadContexts_virtualizes E hcs
    have hcount : (cs.world.maps command.connection).handleCount =
        (w.maps command.connection).handleCount := by
      rw [loadContexts_handleCount E hcs, commandSpecialProcessing_maps_of_none E hs]
    obtain ⟨saves, hlog₂, hsaves⟩ := sendResponse_appends E r.2.2 r.1 r.2.1 command.connection
      command.attributes
    have hdrop : (sendResponse E r.2.2 r.1 r.2.1 command.connection command.attributes).log.drop
        w.log.length = loads ++ [.sendCommand cs.command (E.sendCommand cs.world.log cs.command)] ++
          saves := by
      rw [hlog₂, resourceManagerCreateContextMapping_log hmap]
      simp [World.accessBrokerSendCommand, hlog₁, commandSpecialProcessing_log]
    have hsink := sendResponse_sink E r.2.2 r.1 r.2.1 command.connection command.attributes
    rw [resourceManagerCreateContextMapping_sink hmap, World.accessBrokerSendCommand,
      World.record_sink, loadContexts_sink E hcs, commandSpecialProcessing_sink] at hsink
    obtain ⟨hc₁, hcode, hparams, hhandle⟩ := resourceManagerCreateContextMapping_response hmap
    simp only [World.accessBrokerSendCommand, World.record_maps] at hmap hc₁ hcode hparams hhandle
    refine ⟨r.1, hsink, hc₁.trans (by split <;> rfl), fun tpmCommand result hm => ?_⟩
    rw [hdrop] at hm
    obtain ⟨rfl, rfl⟩ : tpmCommand = cs.command ∧ result = E.sendCommand cs.world.log cs.command := by
      simp only [List.mem_append, List.mem_singleton] at hm
      rcases hm with (hm | hm) | hm
      · exact absurd (hloads _ hm) (by simp [BrokerEvent.isLoad])
      · injection hm with h₁ h₂
        exact ⟨h₁, h₂⟩
      · exact absurd (hsaves _ hm) (by simp [BrokerEvent.isSave])
    cases hr : E.sendCommand cs.world.log cs.command with
    | error rc =>
      simp only [hr] at hmap
      unfold resourceManagerCreateContextMapping at hmap
      cases hmap
      rfl
    | ok tpm =>
      simp only [hr] at hmap hcode hparams hhandle
      refine ⟨hcode, hparams, by rw [hhandle, HandleMap.responseHandle_congr hcount],
        fun p hp ht => ?_⟩
      obtain ⟨hv, hL, hholds⟩ := resourceManagerCreateContextMapping_holds hmap hp ht
      dsimp only at hv hL hholds
      rw [World.record_maps, HandleMap.nextVhandle_fst_congr hcount] at hv hL hholds
      split_ifs with hattrs
      · exact sendResponse_holds E r.1 r.2.1 hattrs hholds
      · rw [sendResponse, hL]
        exact postProcessLoadedTransients_removes E hattrs hv (List.mem_cons_self _ _)

/-- One command's round trip through the resource manager.  The AccessBroker calls come in
three phases: loads, then the command itself or nothing, then saves and flushes.  A command
the quota check or special processing answers loads nothing and is not sent.  A command that
goes to the TPM is the client's command with its handles virtualised against the caller's
map as it was when the command arrived, and the one response the client receives is the
TPM's answer with a new transient replaced by the map's next vhandle, bound at the end of the
command to the new object. -/
theorem resourceManagerProcessTpm2Command_virtualized {w w' : World} {command : Tpm2Command}
    (h : resourceManagerProcessTpm2Command E w command = .ok w') :
    ∃ response loads sent saves, w'.sink = w.sink ++ [.response response] ∧
      response.connection = command.connection ∧
      w'.log = w.log ++ loads ++ sent ++ saves ∧
      (∀ e ∈ loads, e.isLoad) ∧ (∀ e ∈ saves, e.isSave) ∧
      (resourceManagerQuotaCheck w command ≠ tss2RcSuccess ∨
          (commandSpecialProcessing E w command).1.isSome → sent = [] ∧ loads = []) ∧
      (resourceManagerQuotaCheck w command = tss2RcSuccess →
        (commandSpecialProcessing E w command).1 = none →
        ∃ tpmCommand result, sent = [.sendCommand tpmCommand result] ∧
          Virtualizes (w.maps command.connection) loads command tpmCommand ∧
          AnswersWith (w.maps command.connection) command w' result response) := by
  obtain ⟨loads, sent, saves, hlog, hloads, hsaves, hsent⟩ :=
    resourceManagerProcessTpm2Command_conversation E h
  obtain ⟨response, hsink, hconn, hanswer⟩ := resourceManagerProcessTpm2Command_response E h
  refine ⟨response, loads, sent, saves, hsink, hconn, hlog, hloads, hsaves, ?_⟩
  rcases hsent with ⟨hc, hnil⟩ | ⟨hq, hs, tpmCommand, result, rfl, hvirt⟩
  · refine ⟨fun _ => hnil, fun hq hs => absurd hc ?_⟩
    simp [hq, hs]
  · refine ⟨fun hc => absurd hc (by simp [hq, hs]), fun _ _ =>
      ⟨tpmCommand, result, rfl, hvirt, hanswer tpmCommand result ?_⟩⟩
    rw [hlog, List.append_assoc, List.append_assoc, List.drop_left]
    simp

/-- `TPM2_CreatePrimary` on a fresh connection: the TPM's transient comes back as the
connection's first vhandle. -/
theorem createPrimary_virtualized :
    ∃ w', resourceManagerProcessTpm2Command certifyEnv (World.initial 3 3)
        (createPrimary ⟨1⟩) = .ok w' ∧
      ∃ response loads sent saves,
        w'.sink = (World.initial 3 3).sink ++ [.response response] ∧
        response.connection = (createPrimary ⟨1⟩).connection ∧
        w'.log = (World.initial 3 3).log ++ loads ++ sent ++ saves ∧
        (∀ e ∈ loads, e.isLoad) ∧ (∀ e ∈ saves, e.isSave) ∧
        (resourceManagerQuotaCheck (World.initial 3 3) (createPrimary ⟨1⟩) ≠ tss2RcSuccess ∨
            (commandSpecialProcessing certifyEnv (World.initial 3 3)
              (createPrimary ⟨1⟩)).1.isSome →
          sent = [] ∧ loads = []) ∧
        (resourceManagerQuotaCheck (World.initial 3 3) (createPrimary ⟨1⟩) = tss2RcSuccess →
          (commandSpecialProcessing certifyEnv (World.initial 3 3)
            (createPrimary ⟨1⟩)).1 = none →
          ∃ tpmCommand result, sent = [.sendCommand tpmCommand result] ∧
            Virtualizes ((World.initial 3 3).maps (createPrimary ⟨1⟩).connection) loads
              (createPrimary ⟨1⟩) tpmCommand ∧
            AnswersWith ((World.initial 3 3).maps (createPrimary ⟨1⟩).connection)
              (createPrimary ⟨1⟩) w' result response) := by
  obtain ⟨w', hr⟩ : ∃ w', resourceManagerProcessTpm2Command certifyEnv (World.initial 3 3)
      (createPrimary ⟨1⟩) = .ok w' := exists_ok_of_isOk (by decide)
  exact ⟨w', hr, resourceManagerProcessTpm2Command_virtualized certifyEnv hr⟩

end Tabrmd
