import Tabrmd.Protocol

/-!
# The session calls of a command

Every session load, save or flush the resource manager makes for a command acts on a session
of the caller that the command names, or on the session the TPM created for it; never on a
session of another connection, nor on one the caller holds as `SAVED_CLIENT`.
-/

namespace Tabrmd

/-- A session the load passes may load for `command` from `w`: the caller's, `SAVED_RM`, and
named by the command's handle area or authorisation area. -/
def Loadable (w : World) (command : Tpm2Command) (s : SessionEntry) : Prop :=
  s ∈ w.sessionList.sessionEntrySlist ∧ s.connection = command.connection ∧
    s.state = .savedRm ∧
    (s.handle ∈ command.handles ∨ s.handle ∈ command.auths.map (·.sessionHandle))

/-- The session calls the resource manager may make on its own for `command` from `w`: load
the context of a loadable session; save or flush a loadable session, or one whose handle
`created` allows. -/
def SessionCallOk (w : World) (command : Tpm2Command) (created : UInt32 → Prop) :
    BrokerEvent → Prop
  | .sendContextLoad context _ => ∃ s, Loadable w command s ∧ s.context = context
  | .sendContextSave handle _ => (∃ s, Loadable w command s ∧ s.handle = handle) ∨ created handle
  | .contextFlush handle _ => (∃ s, Loadable w command s ∧ s.handle = handle) ∨ created handle
  | _ => True

/-- The session list while `command` is processed: each `SAVED_RM` session is one of `w`, and
each `LOADED` one has the handle of a loadable session or one `created` allows. -/
def LoadedFrom (w : World) (command : Tpm2Command) (created : UInt32 → Prop)
    (list : SessionList) : Prop :=
  ∀ x ∈ list.sessionEntrySlist, (x.state = .savedRm → x ∈ w.sessionList.sessionEntrySlist) ∧
    (x.state = .loaded → (∃ s, Loadable w command s ∧ s.handle = x.handle) ∨ created x.handle)

section

variable {w : World} {command : Tpm2Command} {created : UInt32 → Prop}

theorem LoadedFrom.remove {list : SessionList} (h : LoadedFrom w command created list)
    (entry : SessionEntry) : LoadedFrom w command created (list.remove entry) :=
  fun x hx => h x (SessionList.mem_remove_slist.mp hx).1

theorem LoadedFrom.mono {list : SessionList} (h : LoadedFrom w command created list)
    {created' : UInt32 → Prop} (hc : ∀ v, created v → created' v) :
    LoadedFrom w command created' list :=
  fun x hx => ⟨(h x hx).1, fun hl => ((h x hx).2 hl).imp_right (hc _)⟩

theorem LoadedFrom.setState_loaded {list : SessionList} (h : LoadedFrom w command created list)
    {entry : SessionEntry} (he : entry ∈ list.sessionEntrySlist)
    (hc : entry.connection = command.connection) (hs : entry.state = .savedRm)
    (hn : entry.handle ∈ command.handles ∨
      entry.handle ∈ command.auths.map (·.sessionHandle)) :
    LoadedFrom w command created (list.setState entry.id .loaded) := by
  intro x hx
  obtain ⟨y, hy, rfl⟩ := SessionList.mem_setState_slist.mp hx
  split_ifs with hid
  · have hye : y = entry := SessionList.eq_of_id_eq (List.mem_append_left _ hy)
      (List.mem_append_left _ he) hid
    subst hye
    exact ⟨fun h' => (by cases h'), fun _ => .inl ⟨y, ⟨(h y hy).1 hs, hc, hs, hn⟩, rfl⟩⟩
  · exact h y hy

theorem SessionCallOk.mono {created' : UInt32 → Prop} (hc : ∀ v, created v → created' v)
    {e : BrokerEvent} (h : SessionCallOk w command created e) :
    SessionCallOk w command created' e := by
  cases e with
  | sendContextSave handle _ => exact h.imp_right (hc _)
  | contextFlush handle _ => exact h.imp_right (hc _)
  | _ => exact h

end

variable (E : Env)

/-! ## The load passes -/

/-- What holds while the contexts of `command` load, `w` being the world the command found and
`w₀` the one the load pass began with: the command keeps its connection, the session list is
`LoadedFrom`, and every call so far is one `SessionCallOk` allows. -/
structure Loading (w : World) (command : Tpm2Command) (created : UInt32 → Prop) (w₀ : World)
    (cs : CommandState) : Prop where
  connection : cs.command.connection = command.connection
  sessions : LoadedFrom w command created cs.world.sessionList
  calls : w₀.Appends (SessionCallOk w command created) cs.world

section

variable {w w₀ : World} {command : Tpm2Command} {created : UInt32 → Prop}

theorem resourceManagerLoadSessionFromHandle_calls {w₁ : World} {c : Connection}
    {handle : UInt32} (willFlush : Bool) (hc : c = command.connection)
    (hn : handle ∈ command.handles ∨ handle ∈ command.auths.map (·.sessionHandle))
    (h : LoadedFrom w command created w₁.sessionList) :
    let w₂ := (resourceManagerLoadSessionFromHandle E w₁ c handle willFlush).2
    LoadedFrom w command created w₂.sessionList ∧
      w₁.Appends (SessionCallOk w command created) w₂ := by
  subst hc
  rcases resourceManagerLoadSessionFromHandle_cases E w₁ command.connection handle willFlush with
    hr | ⟨entry, hl, hc, hs, ⟨rc, -, hr⟩ | ⟨response, -, hr⟩⟩ <;> dsimp only <;> rw [hr]
  · exact ⟨h, .refl _⟩
  all_goals
    obtain ⟨hmem, hh⟩ := SessionList.lookupHandle_eq_some hl
    have hcall : ∀ r, SessionCallOk w command created (.sendContextLoad entry.context r) :=
      fun _ => ⟨entry, ⟨(h entry hmem).1 hs, hc, hs, hh ▸ hn⟩, rfl⟩
  · exact ⟨h.remove entry, (World.Appends.record w₁ (hcall _)).of_trans_log_eq rfl⟩
  · refine ⟨?_, (World.Appends.record w₁ (hcall _)).of_trans_log_eq rfl⟩
    have hl' := h.setState_loaded hmem hc hs (hh ▸ hn)
    split
    · exact hl'.remove entry
    · exact hl'

theorem Loading.loadSession {cs : CommandState} (h : Loading w command created w₀ cs)
    {handle : UInt32} (hn : handle ∈ command.handles ∨
      handle ∈ command.auths.map (·.sessionHandle)) (willFlush : Bool) :
    Loading w command created w₀ { cs with world := (resourceManagerLoadSessionFromHandle E
      cs.world cs.command.connection handle willFlush).2 } :=
  have hs := resourceManagerLoadSessionFromHandle_calls E willFlush h.connection hn h.sessions
  ⟨h.connection, hs.1, h.calls.trans hs.2⟩

theorem loadHandlesBody_loading {acc : UInt32 × CommandState} {ih : Nat × UInt32}
    (hmem : ih.2 ∈ command.handles) (h : Loading w command created w₀ acc.2) :
    Loading w command created w₀ (loadHandlesBody E acc ih).2 := by
  unfold loadHandlesBody
  split_ifs
  · obtain ⟨hconn, hsl, -⟩ := resourceManagerLoadTransient_frame E acc.2 ih.2 ih.1
    exact ⟨hconn.trans h.connection, hsl ▸ h.sessions,
      h.calls.trans (resourceManagerLoadTransient_appends E acc.2 ih.2 ih.1 fun _ _ _ => trivial)⟩
  · exact h.loadSession E (.inl hmem) false
  · exact h

theorem resourceManagerLoadAuthCallback_loading {cs : CommandState} {auth : TpmsAuthCommand}
    (hmem : auth ∈ command.auths) (h : Loading w command created w₀ cs) :
    Loading w command created w₀ (resourceManagerLoadAuthCallback E cs auth) := by
  unfold resourceManagerLoadAuthCallback
  split
  · exact h.loadSession E (.inr (List.mem_map_of_mem _ hmem)) _
  · exact h

theorem loadContexts_loading {cs : CommandState}
    (hr : loadContexts E ⟨w₀, command, []⟩ = .ok cs)
    (h : LoadedFrom w command created w₀.sessionList) : Loading w command created w₀ cs :=
  loadContexts_rec_mem E _ (fun _ _ hmem => loadHandlesBody_loading E hmem)
    (fun _ _ hmem => resourceManagerLoadAuthCallback_loading E hmem) hr ⟨rfl, h, .refl w₀⟩

/-! ## The response and the save pass -/

theorem LoadedFrom.of_subset {list : SessionList}
    (hsub : ∀ x ∈ list.sessionEntrySlist, x ∈ w.sessionList.sessionEntrySlist)
    (hb : ∀ e ∈ w.sessionList.sessionEntrySlist, e.state ≠ .loaded) :
    LoadedFrom w command created list :=
  fun x hx => ⟨fun _ => hsub x hx, fun hl => absurd hl (hb x (hsub x hx))⟩

theorem resourceManagerCreateContextMapping_loadedFrom {w₁ : World} {response : Tpm2Response}
    {L : List UInt32} {r : Tpm2Response × List UInt32 × World}
    (hmap : resourceManagerCreateContextMapping w₁ response L = .ok r)
    (h : LoadedFrom w command created w₁.sessionList)
    (hcreated : ∀ handle, response.handle = some handle → created handle) :
    LoadedFrom w command created r.2.2.sessionList := by
  rcases resourceManagerCreateContextMapping_eq_ok hmap with
    rfl | ⟨-, -, -, -, rfl⟩ | ⟨handle, hh, -, rfl⟩
  · exact h
  · exact h
  · unfold createContextMappingSession
    split
    · exact h
    · intro x hx
      rcases SessionList.mem_insert_slist.mp hx with hx | rfl
      · exact h x hx
      · exact ⟨(fun hs => by cases hs), fun _ => .inr (hcreated handle hh)⟩

theorem sendResponse_sessionCallOk {w₁ : World} (h : LoadedFrom w command created w₁.sessionList)
    (response : Tpm2Response) (L : List UInt32) (c : Connection) (attrs : UInt32) :
    w₁.Appends (SessionCallOk w command created) (sendResponse E w₁ response L c attrs) :=
  sendResponse_calls E w₁ response L c attrs
    (fun e he hl _ _ => ⟨(h e he).2 hl, (h e he).2 hl⟩) fun _ _ => trivial

end

/-! ## One command -/

theorem responseHandle_created {tpmCommand : Tpm2Command} {log : List BrokerEvent}
    {c : Connection} {handle : UInt32}
    (hh : (match E.sendCommand log tpmCommand with
      | .ok tpm => (⟨tpm, c⟩ : Tpm2Response)
      | .error rc => tpm2ResponseNewRc c rc).handle = some handle) :
    ∃ tpm, E.sendCommand log tpmCommand = .ok tpm ∧ tpm.handle = some handle := by
  split at hh
  · exact ⟨_, ‹_›, hh⟩
  · cases hh

/-- In every state a run reaches, each session call the resource manager makes on its own
while it processes a command acts on a session of the caller that the command names and that
the resource manager itself last saved (`SAVED_RM`), or on the session the TPM's answer to the
command created: never on a session of another connection, nor on one the caller saved with
its own `ContextSave` (`SAVED_CLIENT`). -/
theorem resourceManagerProcessTpm2Command_sessionCalls {queue : List (Option QueueItem)}
    {maxTransients maxSessions : Nat} {w w' : World}
    (hrun : resourceManagerThread E queue (World.initial maxTransients maxSessions) = .ok w)
    {command : Tpm2Command} (h : resourceManagerProcessTpm2Command E w command = .ok w') :
    ∃ calls, w'.log = w.log ++ calls ∧ ∀ e ∈ calls, SessionCallOk w command
      (fun handle => ∃ tpmCommand tpm, BrokerEvent.sendCommand tpmCommand (.ok tpm) ∈ calls ∧
        tpm.handle = some handle) e := by
  have hb := resourceManagerThread_preserves_bounded E (initial_bounded _ _) hrun
  rcases resourceManagerProcessTpm2Command_cases E h with
    ⟨-, rfl⟩ | ⟨-, response, -, rfl⟩ | ⟨-, hn, cs, r, hcs, hmap, rfl⟩
  · rw [sendResponse_of_not_loaded E (not_loaded_of_bounded hb)]
    exact ⟨[], by simp, by simp⟩
  · have hs := @commandSpecialProcessing_bounded E _ _ command isSaved_savedRm (Or.inr rfl) hb
    rw [sendResponse_of_not_loaded E (not_loaded_of_bounded hs)]
    exact ⟨[], by simp [commandSpecialProcessing_log], by simp⟩
  let result := E.sendCommand cs.world.log cs.command
  let created : UInt32 → Prop := fun handle =>
    ∃ tpm, result = .ok tpm ∧ tpm.handle = some handle
  have h₀ : LoadedFrom w command created (commandSpecialProcessing E w command).2.sessionList := by
    refine .of_subset ?_ (not_loaded_of_bounded hb)
    rcases commandSpecialProcessing_of_none E hn with hw | ⟨handle, hw⟩ <;> rw [hw]
    · exact fun _ hx => hx
    · exact fun _ hx => (SessionList.mem_removeHandle_slist.mp hx).1
  have hl := loadContexts_loading E hcs h₀
  have hm := resourceManagerCreateContextMapping_loadedFrom hmap hl.sessions
    fun _ hh => responseHandle_created E hh
  obtain ⟨loads, hlog₁, hloads⟩ := hl.calls
  obtain ⟨saves, hlog₂, hsaves⟩ :=
    sendResponse_sessionCallOk E hm r.1 r.2.1 command.connection command.attributes
  refine ⟨loads ++ .sendCommand cs.command result :: saves, ?_, fun e he => ?_⟩
  · rw [hlog₂, resourceManagerCreateContextMapping_log hmap]
    simp [World.accessBrokerSendCommand, hlog₁, commandSpecialProcessing_log, result]
  have hcreated : ∀ handle, created handle → ∃ tpmCommand tpm,
      BrokerEvent.sendCommand tpmCommand (.ok tpm) ∈
        loads ++ .sendCommand cs.command result :: saves ∧ tpm.handle = some handle :=
    fun _ ⟨tpm, hr, hh⟩ => ⟨cs.command, tpm, by simp [← hr], hh⟩
  rcases List.mem_append.mp he with he | he
  · exact (hloads e he).mono hcreated
  rcases List.mem_cons.mp he with rfl | he
  · trivial
  · exact (hsaves e he).mono hcreated

/-- A client starts a session and names it in the authorisation area of its next command: the
resource manager loads the session for that command. -/
theorem auditQueue_sessionCalls :
    ∃ w w', resourceManagerThread auditEnv (auditQueue.take 1) (World.initial 27 3) = .ok w ∧
      resourceManagerProcessTpm2Command auditEnv w (getRandomWithSession ⟨1⟩ 0x03000000) =
        .ok w' ∧
      ∃ calls, w'.log = w.log ++ calls ∧ ∀ e ∈ calls,
        SessionCallOk w (getRandomWithSession ⟨1⟩ 0x03000000)
          (fun handle => ∃ tpmCommand tpm, BrokerEvent.sendCommand tpmCommand (.ok tpm) ∈ calls ∧
            tpm.handle = some handle) e := by
  obtain ⟨w, hrun, hok⟩ : ∃ w, resourceManagerThread auditEnv (auditQueue.take 1)
      (World.initial 27 3) = .ok w ∧
      (resourceManagerProcessTpm2Command auditEnv w (getRandomWithSession ⟨1⟩ 0x03000000)).isOk :=
    exists_ok_of_decide (by decide)
  obtain ⟨w', hw'⟩ := exists_ok_of_isOk hok
  exact ⟨w, w', hrun, hw', resourceManagerProcessTpm2Command_sessionCalls auditEnv hrun hw'⟩

end Tabrmd

/-!
## Vhandles stay until the client drops them

A vhandle leaves the caller's map only when the command asks for it: a transient
`FlushContext`, or a `TPMA_CC_FLUSHED` command naming it.  Rewrites keep vhandles, and the new
entry takes a fresh one.
-/

namespace Tabrmd

/-- The vhandles a command asks to drop from its connection's map: the one a `FlushContext`
names, and, for a command with `TPMA_CC_FLUSHED`, those of its handle area. -/
def Tpm2Command.Drops (command : Tpm2Command) (v : UInt32) : Prop :=
  command.code = tpm2CcFlushContext ∧ command.getFlushHandle = .ok v ∨
    command.attributes &&& tpmaCcFlushed ≠ 0 ∧ v ∈ command.handles

/-- `map` holds every vhandle of `map₀`, except ones `drop` allows it to lose. -/
def KeysKept (map₀ : HandleMap) (drop : UInt32 → Prop) (map : HandleMap) : Prop :=
  ∀ v ∈ map₀.getKeys, v ∈ map.getKeys ∨ drop v

namespace KeysKept

variable {map₀ m : HandleMap} {drop : UInt32 → Prop}

theorem refl (map₀ : HandleMap) (drop : UInt32 → Prop) : KeysKept map₀ drop map₀ :=
  fun _ hv => .inl hv

theorem of_getKeys (h : KeysKept map₀ drop m) {m' : HandleMap} (hk : m'.getKeys = m.getKeys) :
    KeysKept map₀ drop m' :=
  fun v hv => hk ▸ h v hv

theorem insert (h : KeysKept map₀ drop m) (e : HandleMapEntry) :
    KeysKept map₀ drop (m.insert e) := by
  refine fun v hv => (h v hv).imp_left fun hm => ?_
  obtain ⟨e', he', rfl⟩ := List.mem_map.mp hm
  by_cases heq : e'.vhandle = e.vhandle
  · exact List.mem_map.mpr ⟨e, HandleMap.mem_insert.mpr (.inl rfl), heq.symm⟩
  · exact List.mem_map.mpr ⟨e', HandleMap.mem_insert.mpr (.inr ⟨he', heq⟩), rfl⟩

theorem remove (h : KeysKept map₀ drop m) {u : UInt32} (hu : u ∈ map₀.getKeys → drop u) :
    KeysKept map₀ drop (m.remove u) := by
  intro v hv
  rcases h v hv with hm | hd
  · by_cases hvu : v = u
    · subst hvu
      exact .inr (hu hv)
    · obtain ⟨e', he', rfl⟩ := List.mem_map.mp hm
      exact .inl (List.mem_map.mpr ⟨e', HandleMap.mem_remove.mpr ⟨he', hvu⟩, rfl⟩)
  · exact .inr hd

end KeysKept

variable (E : Env)

/-- Every state a run reaches has only counter-issued vhandles in its maps. -/
theorem resourceManagerThread_keysIssued {queue : List (Option QueueItem)}
    {maxTransients maxSessions : Nat} {w : World}
    (hrun : resourceManagerThread E queue (World.initial maxTransients maxSessions) = .ok w)
    (d : Connection) : KeysIssued (w.maps d) :=
  resourceManagerThread_rec E (fun w => ∀ d, KeysIssued (w.maps d))
    (fun _ _ _ hk hr => (resourceManagerProcessTpm2Command_mapsStep E hr).keysIssued hk)
    (fun _ _ _ hk hr d => by rw [(resourceManagerProcessControl_frame E hr).1]; exact hk d)
    (initial_keysIssued maxTransients maxSessions) hrun d

/-! ## The steps of a command -/

theorem commandSpecialProcessing_keysKept (w : World) (command : Tpm2Command) :
    KeysKept (w.maps command.connection) command.Drops
      ((commandSpecialProcessing E w command).2.maps command.connection) := by
  rcases commandSpecialProcessing_cases E w command with
    hw | ⟨hf, handle, hh, -, hw⟩ | ⟨-, handle, -, -, hw⟩ | ⟨-, -, hw⟩ | ⟨-, hw⟩ <;> rw [hw]
  · exact .refl _ _
  · rw [World.setMap_maps, Function.update_same]
    exact (KeysKept.refl _ _).remove fun _ => .inl ⟨hf, hh⟩
  · exact .refl _ _
  · obtain ⟨l, hl⟩ := resourceManagerSaveContextSession_setSessionList w command
    rw [hl]
    exact .refl _ _
  · obtain ⟨l, hl⟩ := resourceManagerLoadContextSession_setSessionList w command
    rw [hl]
    exact .refl _ _

theorem loadContexts_keys {cs cs' : CommandState} (hr : loadContexts E cs = .ok cs') :
    (∀ d, SameKeys (cs.world.maps d) (cs'.world.maps d)) ∧
      ∀ v ∈ cs'.transientSlist, v ∈ cs.transientSlist ∨ v ∈ cs.command.handles := by
  refine loadContexts_rec_mem E (fun cs₂ => (∀ d, SameKeys (cs.world.maps d) (cs₂.world.maps d)) ∧
      ∀ v ∈ cs₂.transientSlist, v ∈ cs.transientSlist ∨ v ∈ cs.command.handles)
    (fun acc ih hmem hacc => ?_) (fun cs₂ auth _ hcs => ?_) hr
    ⟨fun _ => .refl _, fun _ hv => .inl hv⟩
  · unfold loadHandlesBody
    split_ifs
    · rcases resourceManagerLoadTransient_cases E acc.2 ih.2 ih.1 with
        hr | ⟨entry, hv, ⟨rc, -, hr⟩ | ⟨phandle, -, hr⟩⟩ <;> rw [hr]
      · exact hacc
      all_goals
        have hnew : ∀ v ∈ entry.vhandle :: acc.2.transientSlist,
            v ∈ cs.transientSlist ∨ v ∈ cs.command.handles := by
          rw [← (HandleMap.vlookup_eq_some hv).2] at hmem
          exact List.forall_mem_cons.mpr ⟨.inr hmem, hacc.2⟩
      · refine ⟨hacc.1, ?_⟩
        split_ifs
        · exact hacc.2
        · exact hnew
      · refine ⟨fun d => (hacc.1 d).trans ?_, hnew⟩
        by_cases hd : d = acc.2.command.connection
        · subst hd
          simpa using HandleMap.sameKeys_update _ _ _ _
        · simpa [Function.update_noteq hd] using SameKeys.refl _
    · refine ⟨fun d => ?_, hacc.2⟩
      dsimp only
      rw [(resourceManagerLoadSessionFromHandle_frame E _ _ _ _).1]
      exact hacc.1 d
    · exact hacc
  · obtain ⟨-, hL, hmaps, -⟩ := resourceManagerLoadAuthCallback_frame E cs₂ auth
    exact ⟨fun d => hmaps ▸ hcs.1 d, hL ▸ hcs.2⟩

theorem resourceManagerCreateContextMapping_keysKept {w : World} {response : Tpm2Response}
    {L : List UInt32} {r : Tpm2Response × List UInt32 × World} {c : Connection}
    (hc : response.connection = c)
    (hmap : resourceManagerCreateContextMapping w response L = .ok r) {map₀ : HandleMap}
    {drop : UInt32 → Prop} (h : KeysKept map₀ drop (w.maps c)) :
    KeysKept map₀ drop (r.2.2.maps c) ∧ ∀ v ∈ r.2.1, v ∈ L ∨ v = (w.maps c).nextVhandle.1 := by
  subst hc
  rcases resourceManagerCreateContextMapping_eq_ok hmap with
    rfl | ⟨-, -, -, -, rfl⟩ | ⟨-, -, -, rfl⟩
  · exact ⟨h, fun v hv => .inl hv⟩
  · refine ⟨?_, fun v hv => ?_⟩
    · rw [World.setMap_maps, Function.update_same]
      exact (h.of_getKeys (by simp [HandleMap.getKeys])).insert _
    · simp only [List.mem_cons] at hv
      rcases hv with rfl | rfl | hv
      · exact .inr rfl
      · exact .inr rfl
      · exact .inl hv
  · exact ⟨by rw [createContextMappingSession_maps]; exact h, fun v hv => .inl hv⟩

theorem postProcessLoadedTransients_keysKept {w : World} {L : List UInt32} {c : Connection}
    {attrs : UInt32} (hattrs : ¬attrs &&& tpmaCcFlushed = 0) {map₀ : HandleMap}
    {drop : UInt32 → Prop} (h : KeysKept map₀ drop (w.maps c))
    (hL : ∀ v ∈ L, v ∈ map₀.getKeys → drop v) :
    KeysKept map₀ drop ((postProcessLoadedTransients E w L c attrs).maps c) := by
  induction L generalizing w with
  | nil => simpa using h
  | cons v L ih =>
    rw [postProcessLoadedTransients_cons, if_neg hattrs]
    refine ih ?_ fun u hu => hL u (List.mem_cons_of_mem v hu)
    unfold removeEntryFromHandleMap
    split_ifs
    · rw [World.setMap_maps, Function.update_same]
      exact h.remove (hL v (List.mem_cons_self v L))
    · exact h

theorem sendResponse_keysKept {w : World} {response : Tpm2Response} {L : List UInt32}
    {c : Connection} {attrs : UInt32} {map₀ : HandleMap} {drop : UInt32 → Prop}
    (h : KeysKept map₀ drop (w.maps c))
    (hL : attrs &&& tpmaCcFlushed ≠ 0 → ∀ v ∈ L, v ∈ map₀.getKeys → drop v) :
    KeysKept map₀ drop ((sendResponse E w response L c attrs).maps c) := by
  by_cases hattrs : attrs &&& tpmaCcFlushed = 0
  · exact h.of_getKeys (sendResponse_sameKeys E hattrs rfl).1
  · exact postProcessLoadedTransients_keysKept E hattrs
      (by rw [(saveSessionContexts_frame E _).1]; exact h) (hL hattrs)

/-! ## One command -/

/-- In every state a run reaches, whatever the AccessBroker answers, a command leaves in its
caller's map every vhandle that was there, except the vhandle a `FlushContext` names and, for
a command with `TPMA_CC_FLUSHED`, vhandles of its handle area: the resource manager drops no
vhandle the client did not ask it to drop. -/
theorem resourceManagerProcessTpm2Command_keepsVhandles {queue : List (Option QueueItem)}
    {maxTransients maxSessions : Nat} {w w' : World}
    (hrun : resourceManagerThread E queue (World.initial maxTransients maxSessions) = .ok w)
    {command : Tpm2Command} (h : resourceManagerProcessTpm2Command E w command = .ok w') :
    ∀ v ∈ (w.maps command.connection).getKeys,
      v ∈ (w'.maps command.connection).getKeys ∨ command.Drops v := by
  rcases resourceManagerProcessTpm2Command_cases E h with
    ⟨-, rfl⟩ | ⟨-, response, -, rfl⟩ | ⟨-, hs, cs, r, hcs, hmap, rfl⟩
  · rw [sendResponse_nil_maps]
    exact KeysKept.refl _ _
  · rw [sendResponse_nil_maps]
    exact commandSpecialProcessing_keysKept E w command
  have hk := resourceManagerThread_keysIssued E hrun command.connection
  obtain ⟨hsame, hslist⟩ := loadContexts_keys E hcs
  rw [commandSpecialProcessing_maps_of_none E hs] at hsame
  have hc : (match (cs.world.accessBrokerSendCommand E cs.command).1 with
      | .ok tpm => (⟨tpm, command.connection⟩ : Tpm2Response)
      | .error rc => tpm2ResponseNewRc command.connection rc).connection =
        command.connection := by
    split <;> rfl
  obtain ⟨hkept, hL⟩ := resourceManagerCreateContextMapping_keysKept hc hmap
    ((KeysKept.refl _ _).of_getKeys (hsame command.connection).1)
  refine sendResponse_keysKept E hkept fun hfl v hv hv₀ => ?_
  rcases hL v hv with hv | rfl
  · rcases hslist v hv with hv | hv
    · cases hv
    · exact .inr ⟨hfl, hv⟩
  · obtain ⟨e, he, hev⟩ := List.mem_map.mp hv₀
    exact absurd (hev.trans (HandleMap.nextVhandle_fst_congr (hsame _).2.1))
      (hk.transient_fresh e he).2

/-- A client starts a hash sequence and completes it: `TPM2_SequenceComplete` carries
`TPMA_CC_FLUSHED` and names the sequence, which is the one vhandle the command drops. -/
theorem sequenceComplete_keepsVhandles :
    ∃ w w', resourceManagerThread failEnv (sequenceQueue.take 1) (World.initial 3 3) = .ok w ∧
      resourceManagerProcessTpm2Command failEnv w (sequenceComplete ⟨1⟩ 0x80000001) = .ok w' ∧
      ∀ v ∈ (w.maps (sequenceComplete ⟨1⟩ 0x80000001).connection).getKeys,
        v ∈ (w'.maps (sequenceComplete ⟨1⟩ 0x80000001).connection).getKeys ∨
          (sequenceComplete ⟨1⟩ 0x80000001).Drops v := by
  obtain ⟨w, hrun, hok⟩ : ∃ w, resourceManagerThread failEnv (sequenceQueue.take 1)
      (World.initial 3 3) = .ok w ∧
      (resourceManagerProcessTpm2Command failEnv w (sequenceComplete ⟨1⟩ 0x80000001)).isOk :=
    exists_ok_of_decide (by decide)
  obtain ⟨w', hw'⟩ := exists_ok_of_isOk hok
  exact ⟨w, w', hrun, hw', resourceManagerProcessTpm2Command_keepsVhandles failEnv hrun hw'⟩

end Tabrmd
