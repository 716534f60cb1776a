import Tabrmd.ResourceManager

/-!
# Frame lemmas

What each step of the resource manager leaves alone, and the inversion and fold principles
the later files reason with.
-/

namespace Tabrmd

variable (E : Env)

/-! ## Loading -/

/-- `resource_manager_load_transient` does nothing unless the map holds `handle`; then it
calls context load, and on success records the physical handle in the entry and the command
and puts the vhandle on the loaded list.  A failure whose code is `TSS2_RC_SUCCESS` also puts
the vhandle on the list. -/
theorem resourceManagerLoadTransient_cases (cs : CommandState) (handle : UInt32) (i : Nat) :
    (resourceManagerLoadTransient E cs handle i).2 = cs ∨
      ∃ entry, (cs.world.maps cs.command.connection).vlookup handle = some entry ∧
        ((∃ rc, E.contextLoad cs.world.log entry.context = .error rc ∧
            (resourceManagerLoadTransient E cs handle i).2 =
              ⟨cs.world.record (.contextLoad entry.context (.error rc)), cs.command,
                if rc ≠ tss2RcSuccess then cs.transientSlist
                else entry.vhandle :: cs.transientSlist⟩) ∨
          ∃ phandle, E.contextLoad cs.world.log entry.context = .ok phandle ∧
            (resourceManagerLoadTransient E cs handle i).2 =
              ⟨(cs.world.record (.contextLoad entry.context (.ok phandle))).setMap
                  cs.command.connection
                  ((cs.world.maps cs.command.connection).update entry.vhandle phandle id),
                cs.command.setHandle phandle i, entry.vhandle :: cs.transientSlist⟩) := by
  unfold resourceManagerLoadTransient
  rcases (cs.world.maps cs.command.connection).vlookup handle with _ | entry
  · exact .inl rfl
  refine .inr ⟨entry, rfl, ?_⟩
  cases hr : E.contextLoad cs.world.log entry.context with
  | error rc =>
    refine .inl ⟨rc, rfl, ?_⟩
    simp only [resourceManagerVirtToPhys, World.accessBrokerContextLoad, hr]
    split_ifs <;> rfl
  | ok phandle =>
    refine .inr ⟨phandle, rfl, ?_⟩
    simp [resourceManagerVirtToPhys, World.accessBrokerContextLoad, hr, tss2RcSuccess]

theorem resourceManagerLoadTransient_frame (cs : CommandState) (handle : UInt32) (i : Nat) :
    let cs' := (resourceManagerLoadTransient E cs handle i).2
    cs'.command.connection = cs.command.connection ∧
      cs'.world.sessionList = cs.world.sessionList ∧ cs.world.log <+: cs'.world.log := by
  rcases resourceManagerLoadTransient_cases E cs handle i with
    h | ⟨entry, -, ⟨rc, -, h⟩ | ⟨phandle, -, h⟩⟩ <;> simp [h]

/-- `resource_manager_load_session_from_handle` does nothing unless the list tracks `handle`
as a `SAVED_RM` session of the calling connection; then it loads the context, drops the
session if that fails, and otherwise marks it `LOADED`, dropping it if the command flushes
it. -/
theorem resourceManagerLoadSessionFromHandle_cases (w : World) (c : Connection)
    (handle : UInt32) (willFlush : Bool) :
    (resourceManagerLoadSessionFromHandle E w c handle willFlush).2 = w ∨
      ∃ entry, w.sessionList.lookupHandle handle = some entry ∧ entry.connection = c ∧
        entry.state = .savedRm ∧
        ((∃ rc, E.sendContextLoad w.log entry.context = .error rc ∧
            (resourceManagerLoadSessionFromHandle E w c handle willFlush).2 =
              (w.record (.sendContextLoad entry.context (.error rc))).setSessionList
                (w.sessionList.remove entry)) ∨
          ∃ response, E.sendContextLoad w.log entry.context = .ok response ∧
            (resourceManagerLoadSessionFromHandle E w c handle willFlush).2 =
              (w.record (.sendContextLoad entry.context (.ok response))).setSessionList
                (if willFlush then (w.sessionList.setState entry.id .loaded).remove entry
                  else w.sessionList.setState entry.id .loaded)) := by
  unfold resourceManagerLoadSessionFromHandle
  rcases w.sessionList.lookupHandle handle with _ | entry
  · exact .inl rfl
  dsimp only
  by_cases hc : c ≠ entry.connection
  · exact .inl (by rw [if_pos hc])
  by_cases hs : entry.state ≠ .savedRm
  · exact .inl (by rw [if_neg hc, if_pos hs])
  rw [if_neg hc, if_neg hs]
  refine .inr ⟨entry, rfl, (not_not.mp hc).symm, not_not.mp hs, ?_⟩
  cases hr : E.sendContextLoad w.log entry.context with
  | error rc => exact .inl ⟨rc, rfl, by simp [World.accessBrokerSendContextLoad, hr]⟩
  | ok response => exact .inr ⟨response, rfl, by simp [World.accessBrokerSendContextLoad, hr]⟩

theorem resourceManagerLoadSessionFromHandle_frame (w : World) (c : Connection) (h : UInt32)
    (f : Bool) :
    (resourceManagerLoadSessionFromHandle E w c h f).2.maps = w.maps ∧
      w.log <+: (resourceManagerLoadSessionFromHandle E w c h f).2.log := by
  rcases resourceManagerLoadSessionFromHandle_cases E w c h f with
    hr | ⟨entry, -, -, -, ⟨rc, -, hr⟩ | ⟨response, -, hr⟩⟩ <;> simp [hr]

theorem resourceManagerLoadAuthCallback_frame (cs : CommandState) (auth : TpmsAuthCommand) :
    let cs' := resourceManagerLoadAuthCallback E cs auth
    cs'.command = cs.command ∧ cs'.transientSlist = cs.transientSlist ∧
      cs'.world.maps = cs.world.maps ∧ cs.world.log <+: cs'.world.log := by
  unfold resourceManagerLoadAuthCallback
  split
  · exact ⟨rfl, rfl, resourceManagerLoadSessionFromHandle_frame E _ _ _ _⟩
  · exact ⟨rfl, rfl, rfl, List.prefix_refl _⟩

theorem loadHandlesBody_frame (acc : UInt32 × CommandState) (ih : Nat × UInt32) :
    let cs' := (loadHandlesBody E acc ih).2
    cs'.command.connection = acc.2.command.connection ∧ acc.2.world.log <+: cs'.world.log := by
  unfold loadHandlesBody
  split_ifs
  · exact (resourceManagerLoadTransient_frame E _ _ _).imp_right And.right
  · exact ⟨rfl, (resourceManagerLoadSessionFromHandle_frame E _ _ _ _).2⟩
  · exact ⟨rfl, List.prefix_refl _⟩

theorem loadContexts_eq_ok {cs cs' : CommandState} (h : loadContexts E cs = .ok cs') :
    ∃ cs₁, (cs₁ = cs ∨ ∃ r, resourceManagerLoadHandles E cs = .ok r ∧ r.2 = cs₁) ∧
      cs' = if cs₁.command.auths ≠ [] then
        cs₁.command.auths.foldl (resourceManagerLoadAuthCallback E) cs₁ else cs₁ := by
  by_cases hn : 0 < cs.command.handles.length
  · cases hr : resourceManagerLoadHandles E cs with
    | error e => simp [loadContexts, hn, hr, Except.map] at h
    | ok r =>
      simp only [loadContexts, hn, hr, if_true, Except.map, Except.ok.injEq] at h
      exact ⟨r.2, Or.inr ⟨r, rfl, rfl⟩, h.symm⟩
  · simp only [loadContexts, hn, if_false, Except.map, Except.ok.injEq] at h
    exact ⟨cs, Or.inl rfl, h.symm⟩

theorem loadHandlesBody_auths (acc : UInt32 × CommandState) (ih : Nat × UInt32) :
    (loadHandlesBody E acc ih).2.command.auths = acc.2.command.auths := by
  unfold loadHandlesBody
  split_ifs
  · rcases resourceManagerLoadTransient_cases E acc.2 ih.2 ih.1 with
      h | ⟨entry, -, ⟨rc, -, h⟩ | ⟨phandle, -, h⟩⟩ <;> simp only [h, Tpm2Command.setHandle_auths]
  · rfl
  · rfl

/-- What one pass of the handle loop on a handle of the command and one callback on an
authorisation of the command preserve, the whole load pass preserves. -/
theorem loadContexts_rec_mem (P : CommandState → Prop) {cs cs' : CommandState}
    (hbody : ∀ acc ih, ih.2 ∈ cs.command.handles → P acc.2 → P (loadHandlesBody E acc ih).2)
    (hauth : ∀ cs₂ auth, auth ∈ cs.command.auths → P cs₂ →
      P (resourceManagerLoadAuthCallback E cs₂ auth))
    (hr : loadContexts E cs = .ok cs') (h : P cs) : P cs' := by
  obtain ⟨cs₁, hcs₁, rfl⟩ := loadContexts_eq_ok E hr
  have h₁ : P cs₁ ∧ cs₁.command.auths = cs.command.auths := by
    rcases hcs₁ with rfl | ⟨r, hrh, rfl⟩
    · exact ⟨h, rfl⟩
    · unfold resourceManagerLoadHandles at hrh
      split at hrh
      · cases hrh
      · cases hrh
        exact List.foldlRecOn (motive := fun acc : UInt32 × CommandState =>
          P acc.2 ∧ acc.2.command.auths = cs.command.auths) _ _ _ ⟨h, rfl⟩
          fun acc hacc ih hih => ⟨hbody acc ih (List.snd_mem_of_mem_enum hih) hacc.1,
            (loadHandlesBody_auths E acc ih).trans hacc.2⟩
  split
  · exact List.foldlRecOn (motive := P) _ _ _ h₁.1 fun cs₂ hcs auth hmem =>
      hauth cs₂ auth (h₁.2 ▸ hmem) hcs
  · exact h₁.1

/-- What one pass of the handle loop and one authorisation callback preserve, the whole load
pass preserves. -/
theorem loadContexts_rec (P : CommandState → Prop)
    (hbody : ∀ acc ih, P acc.2 → P (loadHandlesBody E acc ih).2)
    (hauth : ∀ cs auth, P cs → P (resourceManagerLoadAuthCallback E cs auth))
    {cs cs' : CommandState} (hr : loadContexts E cs = .ok cs') (h : P cs) : P cs' :=
  loadContexts_rec_mem E P (fun acc ih _ => hbody acc ih) (fun cs auth _ => hauth cs auth) hr h

theorem loadContexts_frame {cs cs' : CommandState} (h : loadContexts E cs = .ok cs') :
    cs'.command.connection = cs.command.connection ∧ cs.world.log <+: cs'.world.log :=
  loadContexts_rec E (fun cs₂ => cs₂.command.connection = cs.command.connection ∧
      cs.world.log <+: cs₂.world.log)
    (fun acc ih hacc => ⟨(loadHandlesBody_frame E acc ih).1.trans hacc.1,
      hacc.2.trans (loadHandlesBody_frame E acc ih).2⟩)
    (fun cs₂ auth hcs => ⟨by rw [(resourceManagerLoadAuthCallback_frame E cs₂ auth).1]; exact hcs.1,
      hcs.2.trans (resourceManagerLoadAuthCallback_frame E cs₂ auth).2.2.2⟩)
    h ⟨rfl, List.prefix_refl _⟩

theorem loadContexts_handleCount {cs cs' : CommandState} (hr : loadContexts E cs = .ok cs')
    (d : Connection) : (cs'.world.maps d).handleCount = (cs.world.maps d).handleCount :=
  loadContexts_rec E (fun cs₂ => (cs₂.world.maps d).handleCount = (cs.world.maps d).handleCount)
    (fun acc ih hacc => by
      unfold loadHandlesBody
      dsimp only at hacc ⊢
      split_ifs
      · rcases resourceManagerLoadTransient_cases E acc.2 ih.2 ih.1 with
          h | ⟨entry, -, ⟨rc, -, h⟩ | ⟨phandle, -, h⟩⟩ <;> rw [h]
        · exact hacc
        · exact hacc
        · by_cases hd : d = acc.2.command.connection
          · subst hd
            simpa using hacc
          · simpa [Function.update_noteq hd] using hacc
      · rw [(resourceManagerLoadSessionFromHandle_frame E _ _ _ _).1]
        exact hacc
      · exact hacc)
    (fun cs₂ auth hcs => by
      dsimp only at hcs ⊢
      rw [(resourceManagerLoadAuthCallback_frame E cs₂ auth).2.2.1]
      exact hcs)
    hr rfl

/-! ## Saving and post-processing -/

theorem resourceManagerFlushsaveContext_cases (w : World) (c : Connection) (v : UInt32) :
    (resourceManagerFlushsaveContext E w c v = w ∧
        ∀ e ∈ (w.maps c).entries, e.vhandle = v → handleType e.phandle ≠ tpm2HtTransient) ∨
      ∃ entry, (w.maps c).vlookup v = some entry ∧ handleType entry.phandle = tpm2HtTransient ∧
        ((∃ rc, E.contextSaveflush w.log entry.phandle = .error rc ∧
            resourceManagerFlushsaveContext E w c v =
              w.record (.contextSaveflush entry.phandle (.error rc))) ∨
          ∃ context, E.contextSaveflush w.log entry.phandle = .ok context ∧
            resourceManagerFlushsaveContext E w c v =
              (w.record (.contextSaveflush entry.phandle (.ok context))).setMap c
                ((w.maps c).update v 0 fun _ => context)) := by
  unfold resourceManagerFlushsaveContext
  rcases hv : (w.maps c).vlookup v with _ | entry
  · exact .inl ⟨rfl, fun e he hev => absurd hev (HandleMap.vlookup_eq_none hv e he)⟩
  obtain ⟨hmem, hkey⟩ := HandleMap.vlookup_eq_some hv
  dsimp only
  split_ifs with ht
  · refine .inr ⟨entry, rfl, ht, ?_⟩
    cases hr : E.contextSaveflush w.log entry.phandle <;>
      simp [World.accessBrokerContextSaveflush, hr]
  · refine .inl ⟨rfl, fun e he hev => ?_⟩
    rwa [HandleMap.eq_of_vhandle_eq he hmem (hev.trans hkey.symm)]

theorem resourceManagerFlushsaveContext_frame (w : World) (c : Connection) (v : UInt32) :
    (resourceManagerFlushsaveContext E w c v).sessionList = w.sessionList ∧
      w.log <+: (resourceManagerFlushsaveContext E w c v).log := by
  rcases resourceManagerFlushsaveContext_cases E w c v with
    ⟨h, -⟩ | ⟨entry, -, -, ⟨rc, -, h⟩ | ⟨ctx, -, h⟩⟩ <;> simp [h]

theorem resourceManagerSaveSessionContext_cases (w : World) (entry : SessionEntry) :
    (entry.state ≠ .loaded ∧ resourceManagerSaveSessionContext E w entry = w) ∨
      entry.state = .loaded ∧
        ((∃ response, E.sendContextSave w.log entry.handle = .ok response ∧
            resourceManagerSaveSessionContext E w entry =
              (w.record (.sendContextSave entry.handle (.ok response))).setSessionList
                ((w.sessionList.setContext entry.id response.body).setState entry.id .savedRm)) ∨
          ∃ rc, E.sendContextSave w.log entry.handle = .error rc ∧
            let w₁ := w.record (.sendContextSave entry.handle (.error rc))
            resourceManagerSaveSessionContext E w entry =
              (w₁.record (.contextFlush entry.handle
                (E.contextFlush w₁.log entry.handle))).setSessionList
                (w.sessionList.remove entry)) := by
  unfold resourceManagerSaveSessionContext
  split_ifs with hs
  · exact .inl ⟨hs, rfl⟩
  refine .inr ⟨not_not.mp hs, ?_⟩
  cases hr : E.sendContextSave w.log entry.handle with
  | ok response => exact .inl ⟨response, rfl, by simp [World.accessBrokerSendContextSave, hr]⟩
  | error rc =>
    exact .inr ⟨rc, rfl, by
      simp [World.accessBrokerSendContextSave, World.accessBrokerContextFlush, hr]⟩

theorem resourceManagerSaveSessionContext_frame (w : World) (entry : SessionEntry) :
    (resourceManagerSaveSessionContext E w entry).maps = w.maps ∧
      w.log <+: (resourceManagerSaveSessionContext E w entry).log := by
  rcases resourceManagerSaveSessionContext_cases E w entry with
    ⟨-, hr⟩ | ⟨-, ⟨response, -, hr⟩ | ⟨rc, -, hr⟩⟩ <;> simp [hr]

theorem saveSessionContexts_frame (w : World) :
    (saveSessionContexts E w).maps = w.maps ∧ w.log <+: (saveSessionContexts E w).log :=
  List.foldlRecOn (motive := fun w' : World => w'.maps = w.maps ∧ w.log <+: w'.log)
    _ _ _ ⟨rfl, List.prefix_refl _⟩ fun w' hw' e _ =>
      ⟨(resourceManagerSaveSessionContext_frame E w' e).1.trans hw'.1,
        hw'.2.trans (resourceManagerSaveSessionContext_frame E w' e).2⟩

theorem removeEntryFromHandleMap_frame (w : World) (c : Connection) (v : UInt32) :
    (removeEntryFromHandleMap w c v).sessionList = w.sessionList ∧
      (removeEntryFromHandleMap w c v).log = w.log := by
  unfold removeEntryFromHandleMap
  split <;> exact ⟨rfl, rfl⟩

theorem postProcessLoadedTransients_frame (w : World) (L : List UInt32) (c : Connection)
    (attrs : UInt32) :
    (postProcessLoadedTransients E w L c attrs).sessionList = w.sessionList ∧
      w.log <+: (postProcessLoadedTransients E w L c attrs).log := by
  unfold postProcessLoadedTransients
  split
  · exact List.foldlRecOn (motive := fun w' : World =>
      w'.sessionList = w.sessionList ∧ w.log <+: w'.log) _ _ _ ⟨rfl, List.prefix_refl _⟩
      fun w' hw' v _ => ⟨(resourceManagerFlushsaveContext_frame E w' c v).1.trans hw'.1,
        hw'.2.trans (resourceManagerFlushsaveContext_frame E w' c v).2⟩
  · exact List.foldlRecOn (motive := fun w' : World =>
      w'.sessionList = w.sessionList ∧ w.log <+: w'.log) _ _ _ ⟨rfl, List.prefix_refl _⟩
      fun w' hw' v _ => ⟨(removeEntryFromHandleMap_frame w' c v).1.trans hw'.1,
        by rw [(removeEntryFromHandleMap_frame w' c v).2]; exact hw'.2⟩

theorem sendResponse_log (w : World) (response : Tpm2Response) (L : List UInt32)
    (c : Connection) (attrs : UInt32) : w.log <+: (sendResponse E w response L c attrs).log :=
  (saveSessionContexts_frame E (w.sinkEnqueue (.response response))).2.trans
    (postProcessLoadedTransients_frame E _ L c attrs).2

theorem sendResponse_nil_maps (w : World) (response : Tpm2Response) (c : Connection)
    (attrs : UInt32) : (sendResponse E w response [] c attrs).maps = w.maps := by
  rw [sendResponse, postProcessLoadedTransients_nil, (saveSessionContexts_frame E _).1]
  rfl

/-! ## Special processing and mapping make no AccessBroker call -/

theorem resourceManagerSaveContextSession_setSessionList (w : World) (command : Tpm2Command) :
    ∃ l, (resourceManagerSaveContextSession w command).2 = w.setSessionList l := by
  unfold resourceManagerSaveContextSession
  dsimp only
  split
  · exact ⟨w.sessionList, rfl⟩
  · split_ifs
    · exact ⟨w.sessionList, rfl⟩
    · exact ⟨_, rfl⟩

theorem resourceManagerLoadContextSession_setSessionList (w : World) (command : Tpm2Command) :
    ∃ l, (resourceManagerLoadContextSession w command).2 = w.setSessionList l := by
  unfold resourceManagerLoadContextSession
  split
  · exact ⟨w.sessionList, rfl⟩
  · dsimp only
    split
    · exact ⟨w.sessionList, rfl⟩
    · exact ⟨_, rfl⟩

/-- The outcomes of `command_special_processing`: nothing, a transient `FlushContext` that
drops the entry from the caller's map, a session `FlushContext` that drops every session with
the handle, or the `ContextSave` and `ContextLoad` handlers. -/
theorem commandSpecialProcessing_cases (w : World) (command : Tpm2Command) :
    (commandSpecialProcessing E w command).2 = w ∨
      (command.code = tpm2CcFlushContext ∧ ∃ handle, command.getFlushHandle = .ok handle ∧
        handleType handle = tpm2HtTransient ∧
        (commandSpecialProcessing E w command).2 =
          w.setMap command.connection ((w.maps command.connection).remove handle)) ∨
      (command.code = tpm2CcFlushContext ∧ ∃ handle, command.getFlushHandle = .ok handle ∧
        isSessionType handle ∧
        (commandSpecialProcessing E w command).2 =
          w.setSessionList (w.sessionList.removeHandle handle)) ∨
      (command.code = tpm2CcContextSave ∧ isSessionType (command.getHandle 0) ∧
        (commandSpecialProcessing E w command).2 =
          (resourceManagerSaveContextSession w command).2) ∨
      (command.code = tpm2CcContextLoad ∧
        (commandSpecialProcessing E w command).2 =
          (resourceManagerLoadContextSession w command).2) := by
  unfold commandSpecialProcessing
  split_ifs with hf hs hl
  · unfold resourceManagerFlushContext
    rw [if_neg (not_not.mpr hf)]
    rcases hh : command.getFlushHandle with rc | handle
    · exact .inl rfl
    dsimp only
    split_ifs with ht hst
    · rcases (w.maps command.connection).vlookup handle with _ | e
      · exact .inl rfl
      · exact .inr (.inl ⟨hf, handle, rfl, ht, rfl⟩)
    · exact .inr (.inr (.inl ⟨hf, handle, rfl, hst, rfl⟩))
    · exact .inl rfl
  · unfold resourceManagerSaveContext
    split_ifs with hsess
    · exact .inr (.inr (.inr (.inl ⟨hs, hsess, rfl⟩)))
    · exact .inl rfl
  · unfold resourceManagerLoadContext
    dsimp only
    split_ifs
    · exact .inr (.inr (.inr (.inr ⟨hl, rfl⟩)))
    · exact .inl rfl
  · exact .inl rfl
  · exact .inl rfl

theorem commandSpecialProcessing_world (w : World) (command : Tpm2Command) :
    (∃ l, (commandSpecialProcessing E w command).2 = w.setSessionList l) ∨
      ∃ handle, (commandSpecialProcessing E w command).2 =
        w.setMap command.connection ((w.maps command.connection).remove handle) := by
  rcases commandSpecialProcessing_cases E w command with
    h | ⟨-, handle, -, -, h⟩ | ⟨-, handle, -, -, h⟩ | ⟨-, -, h⟩ | ⟨-, h⟩
  · exact .inl ⟨w.sessionList, h⟩
  · exact .inr ⟨handle, h⟩
  · exact .inl ⟨_, h⟩
  · exact .inl (h ▸ resourceManagerSaveContextSession_setSessionList w command)
  · exact .inl (h ▸ resourceManagerLoadContextSession_setSessionList w command)

theorem commandSpecialProcessing_log (w : World) (command : Tpm2Command) :
    (commandSpecialProcessing E w command).2.log = w.log := by
  rcases commandSpecialProcessing_world E w command with ⟨l, h⟩ | ⟨handle, h⟩ <;> rw [h] <;> rfl

theorem resourceManagerCreateContextMapping_eq_ok {w : World} {response : Tpm2Response}
    {L : List UInt32} {r : Tpm2Response × List UInt32 × World}
    (h : resourceManagerCreateContextMapping w response L = .ok r) :
    r = (response, L, w) ∨
      (∃ handle, response.handle = some handle ∧ handleType handle = tpm2HtTransient ∧
        let next := (w.maps response.connection).nextVhandle
        next.1 ≠ 0 ∧ r = (response.setHandle next.1, next.1 :: next.1 :: L,
          w.setMap response.connection (next.2.insert (handleMapEntryNew handle next.1)))) ∨
      ∃ handle, response.handle = some handle ∧ isSessionType handle ∧
        r = (response, L, createContextMappingSession w response handle) := by
  unfold resourceManagerCreateContextMapping at h
  split at h
  · cases h; exact .inl rfl
  rename_i handle hh
  split_ifs at h with ht hs
  · unfold createContextMappingTransient at h
    dsimp only at h
    split_ifs at h with hz
    cases h
    exact .inr (.inl ⟨handle, hh, ht, hz, by rw [hh]; rfl⟩)
  · cases h; exact .inr (.inr ⟨handle, hh, hs, rfl⟩)
  · cases h; exact .inl rfl

theorem resourceManagerCreateContextMapping_log {w : World} {response : Tpm2Response}
    {L : List UInt32} {r : Tpm2Response × List UInt32 × World}
    (h : resourceManagerCreateContextMapping w response L = .ok r) : r.2.2.log = w.log := by
  rcases resourceManagerCreateContextMapping_eq_ok h with
    rfl | ⟨-, -, -, -, rfl⟩ | ⟨-, -, -, rfl⟩ <;> simp

theorem commandSpecialProcessing_maps (w : World) (command : Tpm2Command) (d : Connection) :
    ((commandSpecialProcessing E w command).2.maps d).entries ⊆ (w.maps d).entries := by
  rcases commandSpecialProcessing_world E w command with ⟨l, h⟩ | ⟨handle, h⟩ <;> rw [h]
  · exact List.Subset.refl _
  · intro e he
    by_cases hd : d = command.connection
    · subst hd
      simp only [World.setMap_maps, Function.update_same, HandleMap.mem_remove] at he
      exact he.1
    · simpa [Function.update_noteq hd] using he

theorem commandSpecialProcessing_handleCount (w : World) (command : Tpm2Command)
    (d : Connection) :
    ((commandSpecialProcessing E w command).2.maps d).handleCount = (w.maps d).handleCount := by
  rcases commandSpecialProcessing_world E w command with ⟨l, h⟩ | ⟨handle, h⟩ <;> rw [h]
  · rfl
  · by_cases hd : d = command.connection
    · subst hd
      simp
    · simp [Function.update_noteq hd]

theorem resourceManagerFlushContext_connection {w : World} {command : Tpm2Command}
    {response : Tpm2Response} (h : (resourceManagerFlushContext w command).1 = some response) :
    response.connection = command.connection := by
  unfold resourceManagerFlushContext at h
  repeat' (first | split at h | split_ifs at h | dsimp only at h)
  all_goals first | (cases h; rfl) | cases h

theorem resourceManagerSaveContext_connection {w : World} {command : Tpm2Command}
    {response : Tpm2Response} (h : (resourceManagerSaveContext w command).1 = some response) :
    response.connection = command.connection := by
  unfold resourceManagerSaveContext resourceManagerSaveContextSession at h
  repeat' (first | split at h | split_ifs at h | dsimp only at h)
  all_goals first | (cases h; rfl) | cases h

theorem resourceManagerLoadContext_connection {w : World} {command : Tpm2Command}
    {response : Tpm2Response} (h : (resourceManagerLoadContext E w command).1 = some response) :
    response.connection = command.connection := by
  unfold resourceManagerLoadContext resourceManagerLoadContextSession at h
  repeat' (first | split at h | split_ifs at h | dsimp only at h)
  all_goals first | (cases h; rfl) | cases h

theorem getCapHandlesResponse_connection {command : Tpm2Command} {map : HandleMap}
    {response : Tpm2Response} (h : getCapHandlesResponse command map = some response) :
    response.connection = command.connection := by
  unfold getCapHandlesResponse at h
  dsimp only at h
  split_ifs at h
  cases h
  rfl

theorem commandSpecialProcessing_connection {w : World} {command : Tpm2Command}
    {response : Tpm2Response} (h : (commandSpecialProcessing E w command).1 = some response) :
    response.connection = command.connection := by
  unfold commandSpecialProcessing at h
  split_ifs at h
  · exact resourceManagerFlushContext_connection h
  · exact resourceManagerSaveContext_connection h
  · exact resourceManagerLoadContext_connection E h
  · dsimp only at h
    exact getCapHandlesResponse_connection h

theorem resourceManagerCreateContextMapping_connection {w : World} {response : Tpm2Response}
    {L : List UInt32} {r : Tpm2Response × List UInt32 × World}
    (h : resourceManagerCreateContextMapping w response L = .ok r) :
    r.1.connection = response.connection := by
  rcases resourceManagerCreateContextMapping_eq_ok h with
    rfl | ⟨-, -, -, -, rfl⟩ | ⟨-, -, -, rfl⟩ <;> rfl

/-! ## Processing a command and the thread -/

/-- The quota check rejects only `CreatePrimary`, `Load`, `LoadExternal` and
`StartAuthSession`. -/
theorem resourceManagerQuotaCheck_of_code {w : World} {command : Tpm2Command} {code : UInt32}
    (hcode : command.code = code)
    (h : code ∉ [tpm2CcCreatePrimary, tpm2CcLoad, tpm2CcLoadExternal, tpm2CcStartAuthSession]) :
    resourceManagerQuotaCheck w command = tss2RcSuccess := by
  simp only [List.mem_cons, List.mem_singleton, not_or, List.not_mem_nil, not_false_eq_true,
    and_true] at h
  simp [resourceManagerQuotaCheck, hcode, h.1, h.2.1, h.2.2.1, h.2.2.2]

/-- The three ways a command ends in `send_response`: rejected by the quota check, answered
by special processing, or, when special processing lets it through, sent to the TPM with its
contexts loaded and its response mapped. -/
theorem resourceManagerProcessTpm2Command_cases {w w' : World} {command : Tpm2Command}
    (hr : resourceManagerProcessTpm2Command E w command = .ok w') :
    (resourceManagerQuotaCheck w command ≠ tss2RcSuccess ∧
        w' = sendResponse E w (tpm2ResponseNewRc command.connection
          (resourceManagerQuotaCheck w command)) [] command.connection command.attributes) ∨
      (resourceManagerQuotaCheck w command = tss2RcSuccess ∧
        ∃ response, (commandSpecialProcessing E w command).1 = some response ∧
          w' = sendResponse E (commandSpecialProcessing E w command).2 response []
            command.connection command.attributes) ∨
      resourceManagerQuotaCheck w command = tss2RcSuccess ∧
        (commandSpecialProcessing E w command).1 = none ∧ ∃ cs r,
        loadContexts E ⟨(commandSpecialProcessing E w command).2, command, []⟩ = .ok cs ∧
        resourceManagerCreateContextMapping (cs.world.accessBrokerSendCommand E cs.command).2
          (match (cs.world.accessBrokerSendCommand E cs.command).1 with
            | .ok tpm => ⟨tpm, command.connection⟩
            | .error rc => tpm2ResponseNewRc command.connection rc)
          cs.transientSlist = .ok r ∧
        w' = sendResponse E r.2.2 r.1 r.2.1 command.connection command.attributes := by
  unfold resourceManagerProcessTpm2Command at hr
  dsimp only at hr
  split_ifs at hr with hq
  · cases hr
    exact .inl ⟨hq, rfl⟩
  rw [not_not] at hq
  split at hr
  · cases hr
    exact .inr (.inl ⟨hq, _, ‹_›, rfl⟩)
  rename_i hs
  split at hr
  · cases hr
  rename_i cs hcs
  split at hr
  · cases hr
  cases hr
  exact .inr (.inr ⟨hq, hs, cs, _, hcs, ‹_›, rfl⟩)

theorem resourceManagerProcessTpm2Command_eq_ok {w w' : World} {command : Tpm2Command}
    (hr : resourceManagerProcessTpm2Command E w command = .ok w') :
    ∃ w₁ response L, w' = sendResponse E w₁ response L command.connection command.attributes ∧
      response.connection = command.connection ∧
      (w₁ = w ∧ L = [] ∨ w₁ = (commandSpecialProcessing E w command).2 ∧ L = [] ∨
        ∃ cs response₀,
          loadContexts E ⟨(commandSpecialProcessing E w command).2, command, []⟩ = .ok cs ∧
          response₀.connection = command.connection ∧
          resourceManagerCreateContextMapping (cs.world.accessBrokerSendCommand E cs.command).2
            response₀ cs.transientSlist = .ok (response, L, w₁)) := by
  rcases resourceManagerProcessTpm2Command_cases E hr with
    ⟨-, rfl⟩ | ⟨-, response, hs, rfl⟩ | ⟨-, -, cs, r, hcs, hmap, rfl⟩
  · exact ⟨_, _, _, rfl, rfl, .inl ⟨rfl, rfl⟩⟩
  · exact ⟨_, _, _, rfl, commandSpecialProcessing_connection E hs, .inr (.inl ⟨rfl, rfl⟩)⟩
  · have hc : (match (cs.world.accessBrokerSendCommand E cs.command).1 with
        | .ok tpm => (⟨tpm, command.connection⟩ : Tpm2Response)
        | .error rc => tpm2ResponseNewRc command.connection rc).connection =
          command.connection := by
      split <;> rfl
    exact ⟨_, _, _, rfl, (resourceManagerCreateContextMapping_connection hmap).trans hc,
      .inr (.inr ⟨cs, _, hcs, hc, hmap⟩)⟩

theorem resourceManagerCreateContextMapping_log_of_loadContexts {w : World}
    {command : Tpm2Command} {cs : CommandState} {response : Tpm2Response}
    {r : Tpm2Response × List UInt32 × World}
    (hcs : loadContexts E ⟨(commandSpecialProcessing E w command).2, command, []⟩ = .ok cs)
    (hmap : resourceManagerCreateContextMapping (cs.world.accessBrokerSendCommand E cs.command).2
      response cs.transientSlist = .ok r) :
    w.log <+: cs.world.log ∧ cs.world.log <+: r.2.2.log := by
  have h₁ := (loadContexts_frame E hcs).2
  rw [commandSpecialProcessing_log] at h₁
  rw [resourceManagerCreateContextMapping_log hmap]
  exact ⟨h₁, List.prefix_append _ _⟩

theorem resourceManagerProcessTpm2Command_log {w w' : World} {command : Tpm2Command}
    (hr : resourceManagerProcessTpm2Command E w command = .ok w') : w.log <+: w'.log := by
  obtain ⟨w₁, response, L, rfl, -, h⟩ := resourceManagerProcessTpm2Command_eq_ok E hr
  refine List.IsPrefix.trans ?_ (sendResponse_log E _ _ _ _ _)
  rcases h with ⟨rfl, -⟩ | ⟨rfl, -⟩ | ⟨cs, response₀, hcs, -, hmap⟩
  · exact List.prefix_refl _
  · exact (commandSpecialProcessing_log E w command).symm ▸ List.prefix_refl _
  · obtain ⟨h₁, h₂⟩ := resourceManagerCreateContextMapping_log_of_loadContexts E hcs hmap
    exact h₁.trans h₂

/-- An invariant of each successful step of a `foldlM` in `Except` holds at its result. -/
theorem foldlM_except_rec {α β ε : Type} {f : β → α → Except ε β} (P : β → Prop)
    {l : List α} {b b' : β} (hstep : ∀ b a b', a ∈ l → P b → f b a = .ok b' → P b')
    (hb : P b) (h : l.foldlM f b = .ok b') : P b' := by
  induction l generalizing b with
  | nil => cases h; exact hb
  | cons a l ih =>
    simp only [List.foldlM_cons] at h
    cases hf : f b a with
    | error e => simp [hf] at h; cases h
    | ok b₁ =>
      simp only [hf] at h
      exact ih (fun b a b' ha => hstep b a b' (List.mem_cons_of_mem _ ha))
        (hstep b a b₁ (List.mem_cons_self _ _) hb hf) h

theorem flushSessionCallback_frame (w : World) (entry : SessionEntry) :
    (flushSessionCallback E w entry).2.maps = w.maps ∧
      w.log <+: (flushSessionCallback E w entry).2.log := by
  simp [flushSessionCallback, World.accessBrokerContextFlush]

theorem connectionCloseSessionCallback_frame {w w' : World} {c : Connection}
    {entry : SessionEntry} (h : connectionCloseSessionCallback E c w entry = .ok w') :
    w'.maps = w.maps ∧ w.log <+: w'.log := by
  unfold connectionCloseSessionCallback at h
  split_ifs at h
  · cases h
    exact ⟨rfl, List.prefix_refl _⟩
  dsimp only at h
  split at h
  · cases h
    exact List.foldlRecOn (motive := fun w' : World => w'.maps = w.maps ∧ w.log <+: w'.log)
      _ _ _ ⟨rfl, List.prefix_refl _⟩ fun w' hw' e _ =>
        ⟨(flushSessionCallback_frame E w' e).1.trans hw'.1,
          hw'.2.trans (flushSessionCallback_frame E w' e).2⟩
  · cases h
    simp [World.accessBrokerContextFlush]
  · cases h

theorem resourceManagerRemoveConnection_frame {w w' : World} {c : Connection}
    (h : resourceManagerRemoveConnection E w c = .ok w') :
    w'.maps = w.maps ∧ w.log <+: w'.log :=
  foldlM_except_rec (fun w' : World => w'.maps = w.maps ∧ w.log <+: w'.log)
    (fun _ _ _ _ hb hf => ⟨(connectionCloseSessionCallback_frame E hf).1.trans hb.1,
      hb.2.trans (connectionCloseSessionCallback_frame E hf).2⟩) ⟨rfl, List.prefix_refl _⟩ h

theorem resourceManagerProcessControl_frame {w : World} {msg : ControlMessage}
    {r : Bool × World} (h : resourceManagerProcessControl E w msg = .ok r) :
    r.2.maps = w.maps ∧ w.log <+: r.2.log := by
  unfold resourceManagerProcessControl at h
  split at h
  · cases h
    exact ⟨rfl, List.prefix_refl _⟩
  · rename_i c
    cases hr : resourceManagerRemoveConnection E w c with
    | error e => simp [hr, Except.map] at h
    | ok w₁ =>
      simp only [hr, Except.map, Except.ok.injEq] at h
      subst h
      obtain ⟨hm, hl⟩ := resourceManagerRemoveConnection_frame E hr
      exact ⟨hm, hl⟩
  · cases h
    exact ⟨rfl, List.prefix_refl _⟩

/-- What every successful command and control message preserves holds when the thread
ends. -/
theorem resourceManagerThread_rec (P : World → Prop)
    (hcmd : ∀ w w' command, P w → resourceManagerProcessTpm2Command E w command = .ok w' → P w')
    (hctl : ∀ w r msg, P w → resourceManagerProcessControl E w msg = .ok r → P r.2)
    {queue : List (Option QueueItem)} {w w' : World} (hw : P w)
    (h : resourceManagerThread E queue w = .ok w') : P w' := by
  induction queue generalizing w with
  | nil => cases h; exact hw
  | cons item rest ih =>
    match item, h with
    | none, h => cases h; exact hw
    | some (.command command), h =>
      simp only [resourceManagerThread] at h
      split at h
      · cases h
      · exact ih (hcmd _ _ _ hw ‹_›) h
    | some (.control msg), h =>
      simp only [resourceManagerThread] at h
      split at h
      · cases h
      · split_ifs at h
        · exact ih (hctl _ _ _ hw ‹_›) h
        · cases h; exact hctl _ _ _ hw ‹_›
    | some .other, h => exact ih hw h

theorem resourceManagerThread_append {pre : List (Option QueueItem)}
    (rest : List (Option QueueItem)) {w w₁ : World} (hpre : ∀ item ∈ pre, ∃ command, item = some (.command command))
    (h : resourceManagerThread E pre w = .ok w₁) :
    resourceManagerThread E (pre ++ rest) w = resourceManagerThread E rest w₁ := by
  induction pre generalizing w with
  | nil => cases h; rfl
  | cons item pre ih =>
    obtain ⟨command, rfl⟩ := hpre item (List.mem_cons_self _ _)
    simp only [List.cons_append, resourceManagerThread] at h ⊢
    split at h
    · cases h
    · exact ih (fun item hi => hpre item (List.mem_cons_of_mem _ hi)) h

end Tabrmd
