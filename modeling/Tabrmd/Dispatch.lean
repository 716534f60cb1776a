import Tabrmd.Sessions

/-!
# Closing a connection

In every state a run reaches, `resource_manager_remove_connection` succeeds: it drops the
connection's sessions, flushing those the RM saved, and moves those the client saved to the
abandoned FIFO, evicting the oldest past `MAX_ABANDONED`.  `Closing` says where the pass
stands after a prefix of the sessions.
-/

namespace Tabrmd

open SessionEntryStateEnum (IsSaved)

/-- The connection's sessions the RM saved, in list order. -/
def rmSavedOf (c : Connection) (l : List SessionEntry) : List SessionEntry :=
  l.filter fun e => e.connection == c && e.state == .savedRm

/-- The connection's sessions its client saved, in list order, as they join the abandoned
FIFO. -/
def closedOf (c : Connection) (l : List SessionEntry) : List SessionEntry :=
  (l.filter fun e => e.connection == c && e.state == .savedClient).map
    fun e => { e with state := .savedClientClosed }

/-- The handle an `access_broker_context_flush` call flushed. -/
def BrokerEvent.flushedHandle : BrokerEvent → Option UInt32
  | .contextFlush handle _ => some handle
  | _ => none

@[simp] theorem rmSavedOf_append (c : Connection) (l l' : List SessionEntry) :
    rmSavedOf c (l ++ l') = rmSavedOf c l ++ rmSavedOf c l' :=
  List.filter_append _ _

@[simp] theorem closedOf_append (c : Connection) (l l' : List SessionEntry) :
    closedOf c (l ++ l') = closedOf c l ++ closedOf c l' := by
  simp [closedOf, List.filter_append]

variable (E : Env)

theorem foldl_flushSessionCallback_log (L : List SessionEntry) (w : World) :
    ∃ evs, (L.foldl (fun w e => (flushSessionCallback E w e).2) w).log = w.log ++ evs ∧
      evs.map BrokerEvent.flushedHandle = L.map fun e => some e.handle := by
  induction L generalizing w with
  | nil => exact ⟨[], by simp, rfl⟩
  | cons e L ih =>
    obtain ⟨evs, hlog, hevs⟩ := ih (flushSessionCallback E w e).2
    refine ⟨.contextFlush e.handle (E.contextFlush w.log e.handle) :: evs, ?_, ?_⟩
    · rw [List.foldl_cons, hlog]
      simp [flushSessionCallback, World.accessBrokerContextFlush]
    · simp [hevs, BrokerEvent.flushedHandle]

/-- `connection_close_session_callback` on the next session `e` of the pass, when the sessions
the pass kept before it, `A`, are other connections': `e` leaves the active list when it is
the closing connection's, flushed if the RM saved it, or abandoned and the FIFO pruned if its
client saved it. -/
theorem connectionCloseSessionCallback_spec {c : Connection} {w : World}
    {A L : List SessionEntry} {e : SessionEntry}
    (hw : w.sessionList.sessionEntrySlist = A ++ e :: L) (hA : ∀ a ∈ A, a.connection ≠ c)
    (he : e.connection = c → e.state.IsSaved)
    (hq : w.sessionList.abandonedQueue.length ≤ maxAbandoned) :
    ∃ w' evicted evs, connectionCloseSessionCallback E c w e = .ok w' ∧
      w'.sessionList.sessionEntrySlist = A ++ [e].filter (·.connection != c) ++ L ∧
      evicted ++ w'.sessionList.abandonedQueue = w.sessionList.abandonedQueue ++ closedOf c [e] ∧
      w'.sessionList.abandonedQueue.length =
        min maxAbandoned (w.sessionList.abandonedQueue ++ closedOf c [e]).length ∧
      w'.log = w.log ++ evs ∧
      evs.map BrokerEvent.flushedHandle =
        (rmSavedOf c [e] ++ evicted).map fun e => some e.handle := by
  unfold connectionCloseSessionCallback
  by_cases hec : e.connection = c
  · rw [if_neg (not_not.mpr hec),
      show [e].filter (·.connection != c) = [] by simp [hec], List.append_nil]
    rcases he hec with hs | hs
    · rw [hs]
      refine ⟨_, [], [.contextFlush e.handle (E.contextFlush w.log e.handle)], rfl,
        SessionList.remove_slist_of_eq hw, ?_, ?_, by simp [World.accessBrokerContextFlush], ?_⟩
      · simp [closedOf, hs, World.accessBrokerContextFlush]
      · simp [closedOf, hs, World.accessBrokerContextFlush]
        omega
      · simp [rmSavedOf, hec, hs, BrokerEvent.flushedHandle]
    · rw [hs]
      obtain ⟨hs', hq'⟩ := SessionList.abandonHandle_of_eq hw hA hec
      have hclosed : closedOf c [e] = [{ e with state := .savedClientClosed }] := by
        simp [closedOf, hec, hs]
      obtain ⟨evs, hlog, hevs⟩ := foldl_flushSessionCallback_log E _
        (w.setSessionList (w.sessionList.abandonHandle c e.handle).pruneAbandoned.2)
      refine ⟨_, (w.sessionList.abandonHandle c e.handle).pruneAbandoned.1, evs, rfl, ?_, ?_, ?_,
        by simpa using hlog, ?_⟩
      · rw [foldl_flushSessionCallback_sessionList]
        exact hs'
      · rw [foldl_flushSessionCallback_sessionList, hclosed]
        simp only [World.setSessionList_sessionList, SessionList.pruneAbandoned_fst,
          SessionList.pruneAbandoned_queue, List.take_append_drop, hq']
      · rw [foldl_flushSessionCallback_sessionList, hclosed]
        simp only [World.setSessionList_sessionList, SessionList.pruneAbandoned_queue,
          List.length_drop, SessionList.pruneCount, hq', List.length_append]
        omega
      · rw [hevs]
        simp [rmSavedOf, hs]
  · rw [if_pos hec]
    refine ⟨w, [], [], rfl, by simp [hw, hec], by simp [closedOf, hec], ?_, by simp,
      by simp [rmSavedOf, hec]⟩
    simp [closedOf, hec]
    omega

/-- Where the pass stands after the sessions `P`, with `L` still to come, from a list whose
abandoned FIFO was `Q` and a log `log₀`. -/
structure Closing (c : Connection) (Q : List SessionEntry) (log₀ : List BrokerEvent)
    (P L : List SessionEntry) (w : World) : Prop where
  slist : w.sessionList.sessionEntrySlist = P.filter (·.connection != c) ++ L
  queue : ∃ evicted evs, evicted ++ w.sessionList.abandonedQueue = Q ++ closedOf c P ∧
    w.sessionList.abandonedQueue.length = min maxAbandoned (Q ++ closedOf c P).length ∧
    w.log = log₀ ++ evs ∧
    (evs.map BrokerEvent.flushedHandle).Perm
      ((rmSavedOf c P ++ evicted).map fun e => some e.handle)

theorem Closing.step {c : Connection} {Q : List SessionEntry} {log₀ : List BrokerEvent}
    {P L : List SessionEntry} {e : SessionEntry} {w : World}
    (h : Closing c Q log₀ P (e :: L) w) (he : e.connection = c → e.state.IsSaved) :
    ∃ w', connectionCloseSessionCallback E c w e = .ok w' ∧ Closing c Q log₀ (P ++ [e]) L w' := by
  obtain ⟨evicted, evs, hsplit, hlen, hlog, hperm⟩ := h.queue
  obtain ⟨w', evicted', evs', hr, hs', hsplit', hlen', hlog', hevs'⟩ :=
    connectionCloseSessionCallback_spec E h.slist
      (fun a ha => by simpa using (List.mem_filter.mp ha).2) he (by omega)
  refine ⟨w', hr, ⟨by rw [hs', List.filter_append], evicted ++ evicted', evs ++ evs', ?_, ?_,
    by rw [hlog', hlog, List.append_assoc], ?_⟩⟩
  · rw [List.append_assoc, hsplit', ← List.append_assoc, hsplit, closedOf_append,
      List.append_assoc]
  · rw [hlen']
    simp only [List.length_append, closedOf_append] at hlen ⊢
    omega
  · rw [List.map_append, hevs']
    refine (hperm.append_right _).trans ?_
    rw [← List.map_append, rmSavedOf_append]
    refine List.Perm.map _ ?_
    simpa only [List.append_assoc] using
      (List.perm_append_comm_assoc evicted (rmSavedOf c [e]) evicted').append_left (rmSavedOf c P)

theorem foldlM_connectionCloseSessionCallback_closing (c : Connection) (Q : List SessionEntry)
    (log₀ : List BrokerEvent) (L : List SessionEntry) :
    ∀ (P : List SessionEntry) (w : World), Closing c Q log₀ P L w →
      (∀ e ∈ L, e.connection = c → e.state.IsSaved) →
      ∃ w', L.foldlM (connectionCloseSessionCallback E c) w = .ok w' ∧
        Closing c Q log₀ (P ++ L) [] w' := by
  induction L with
  | nil => exact fun P w h _ => ⟨w, rfl, by simpa using h⟩
  | cons e L ih =>
    intro P w h hL
    obtain ⟨w₁, h₁, hc₁⟩ := h.step E (hL e (List.mem_cons_self _ _))
    obtain ⟨w', h', hc'⟩ := ih _ w₁ hc₁ fun e' he' => hL e' (List.mem_cons_of_mem _ he')
    exact ⟨w', by rw [List.foldlM_cons, h₁]; exact h', by simpa using hc'⟩

theorem resourceManagerRemoveConnection_closing {w : World}
    (hb : SessionsBounded IsSaved w.sessionList) (c : Connection) :
    ∃ w', resourceManagerRemoveConnection E w c = .ok w' ∧
      Closing c w.sessionList.abandonedQueue w.log w.sessionList.sessionEntrySlist [] w' := by
  have h₀ : Closing c w.sessionList.abandonedQueue w.log [] w.sessionList.sessionEntrySlist w :=
    ⟨by simp, [], [], by simp [closedOf], by simpa [closedOf] using hb.abandoned_le, by simp,
      by simp [rmSavedOf]⟩
  simpa using foldlM_connectionCloseSessionCallback_closing E c _ _ _ [] w h₀
    fun e he _ => hb.active e he

/-- In every state a run reaches, whatever the order of the connection's sessions and whatever
the flushes return, `resource_manager_remove_connection` succeeds; afterwards the active
sessions are the other connections' ones, as they were and in order; the abandoned FIFO holds
the last `MAX_ABANDONED` of the old FIFO followed by the connection's client-saved sessions,
closed, in list order; and the calls made are exactly one `ContextFlush` for each session the
RM saved for the connection and one for each evicted session, the oldest of that sequence. -/
theorem resourceManagerRemoveConnection_closes {queue : List (Option QueueItem)}
    {maxTransients maxSessions : Nat} {w : World}
    (hrun : resourceManagerThread E queue (World.initial maxTransients maxSessions) = .ok w)
    (c : Connection) :
    let A := w.sessionList.sessionEntrySlist
    let all := w.sessionList.abandonedQueue ++ closedOf c A
    ∃ w', resourceManagerRemoveConnection E w c = .ok w' ∧
      w'.sessionList.sessionEntrySlist = A.filter (·.connection != c) ∧
      w'.sessionList.abandonedQueue = all.drop (all.length - maxAbandoned) ∧
      w'.sessionList.abandonedQueue.length ≤ maxAbandoned ∧
      ∃ evs, w'.log = w.log ++ evs ∧
        (evs.map BrokerEvent.flushedHandle).Perm
          ((rmSavedOf c A ++ all.take (all.length - maxAbandoned)).map fun e => some e.handle) := by
  intro A all
  obtain ⟨w', hr, hc⟩ := resourceManagerRemoveConnection_closing E
    (resourceManagerThread_preserves_bounded E (initial_bounded _ _) hrun) c
  obtain ⟨evicted, evs, hsplit, hlen, hlog, hperm⟩ := hc.queue
  have hall : all = evicted ++ w'.sessionList.abandonedQueue := hsplit.symm
  have hev : all.length - maxAbandoned = evicted.length := by
    have h := congrArg List.length hsplit
    simp only [List.length_append] at h hlen
    rw [hall, List.length_append]
    omega
  refine ⟨w', hr, by simpa using hc.slist, ?_, by omega, evs, hlog, ?_⟩
  · rw [hev, hall, List.drop_left]
  · rw [hev, hall, List.take_left]
    exact hperm

theorem claimQueue_removeConnection_closes :
    ∃ w, resourceManagerThread claimEnv claimQueue (World.initial 27 1) = .ok w ∧
      let A := w.sessionList.sessionEntrySlist
      let all := w.sessionList.abandonedQueue ++ closedOf ⟨2⟩ A
      ∃ w', resourceManagerRemoveConnection claimEnv w ⟨2⟩ = .ok w' ∧
        w'.sessionList.sessionEntrySlist = A.filter (·.connection != ⟨2⟩) ∧
        w'.sessionList.abandonedQueue = all.drop (all.length - maxAbandoned) ∧
        w'.sessionList.abandonedQueue.length ≤ maxAbandoned ∧
        ∃ evs, w'.log = w.log ++ evs ∧
          (evs.map BrokerEvent.flushedHandle).Perm
            ((rmSavedOf ⟨2⟩ A ++ all.take (all.length - maxAbandoned)).map fun e => some e.handle) := by
  obtain ⟨w, hrun, -⟩ : ∃ w, resourceManagerThread claimEnv claimQueue
      (World.initial 27 1) = .ok w ∧ True :=
    exists_ok_of_decide (by decide)
  exact ⟨w, hrun, resourceManagerRemoveConnection_closes claimEnv hrun ⟨2⟩⟩

end Tabrmd

/-!
## Commands answered without the TPM

A command the quota check rejects or special processing answers goes straight to
`send_response`, which between messages finds nothing to save or flush: it makes no
AccessBroker call.
-/

namespace Tabrmd

open SessionEntryStateEnum (IsSaved IsLive)

variable (E : Env)

theorem foldl_saveSessionContext_of_not_loaded (L : List SessionEntry) (w : World)
    (h : ∀ e ∈ L, e.state ≠ .loaded) : L.foldl (resourceManagerSaveSessionContext E) w = w := by
  induction L with
  | nil => rfl
  | cons e L ih =>
    rcases resourceManagerSaveSessionContext_cases E w e with
      ⟨-, hr⟩ | ⟨hl, -⟩
    · rw [List.foldl_cons, hr]
      exact ih fun e' he' => h e' (List.mem_cons_of_mem _ he')
    · exact absurd hl (h e (List.mem_cons_self _ _))

theorem sendResponse_of_not_loaded {w : World}
    (h : ∀ e ∈ w.sessionList.sessionEntrySlist, e.state ≠ .loaded) (response : Tpm2Response)
    (c : Connection) (attrs : UInt32) :
    sendResponse E w response [] c attrs = w.sinkEnqueue (.response response) := by
  rw [sendResponse, postProcessLoadedTransients_nil, saveSessionContexts]
  exact foldl_saveSessionContext_of_not_loaded E _ _ h

theorem not_loaded_of_bounded {list : SessionList} (h : SessionsBounded IsSaved list) :
    ∀ e ∈ list.sessionEntrySlist, e.state ≠ .loaded := by
  intro e he hl
  rcases h.active e he with hs | hs <;> rw [hs] at hl <;> cases hl

theorem commandSpecialProcessing_flushTransient (w : World) {command : Tpm2Command}
    {handle : UInt32} (hcode : command.code = tpm2CcFlushContext)
    (hh : command.getFlushHandle = .ok handle) (ht : handleType handle = tpm2HtTransient) :
    ∃ response, commandSpecialProcessing E w command =
      (some response, w.setMap command.connection ((w.maps command.connection).remove handle)) := by
  unfold commandSpecialProcessing resourceManagerFlushContext
  rw [if_pos hcode, if_neg (not_not.mpr hcode), hh]
  dsimp only
  rw [if_pos ht]
  rcases hl : (w.maps command.connection).vlookup handle with _ | e
  · exact ⟨_, Prod.ext rfl (by simp [World.setMap, HandleMap.remove_of_vlookup_none hl])⟩
  · exact ⟨_, rfl⟩

theorem commandSpecialProcessing_getCapHandles (w : World) {command : Tpm2Command}
    (hcode : command.code = tpm2CcGetCapability) (hcap : command.getCap = tpm2CapHandles)
    (hprop : handleType command.getProp = tpm2HtTransient) :
    ∃ response, commandSpecialProcessing E w command = (some response, w) := by
  have hf : command.code ≠ tpm2CcFlushContext := by rw [hcode]; decide
  have hs : command.code ≠ tpm2CcContextSave := by rw [hcode]; decide
  have hl : command.code ≠ tpm2CcContextLoad := by rw [hcode]; decide
  unfold commandSpecialProcessing getCapHandlesResponse
  simp only [if_neg hf, if_neg hs, if_neg hl, if_pos hcode, hcap, hprop, and_self, if_true]
  exact ⟨_, rfl⟩

theorem commandSpecialProcessing_contextSave (w : World) {command : Tpm2Command}
    {entry : SessionEntry} (hcode : command.code = tpm2CcContextSave)
    (hs : isSessionType (command.getHandle 0))
    (hl : w.sessionList.lookupHandle (command.getHandle 0) = some entry)
    (hc : command.connection = entry.connection) :
    commandSpecialProcessing E w command =
      (some (tpm2ResponseNewContextSave command.connection entry),
        w.setSessionList (w.sessionList.setState entry.id .savedClient)) := by
  have hf : command.code ≠ tpm2CcFlushContext := by rw [hcode]; decide
  unfold commandSpecialProcessing resourceManagerSaveContext resourceManagerSaveContextSession
  simp only [if_neg hf, if_pos hcode, hs, if_true, hl, hc, ne_eq, not_true_eq_false, if_false]

/-- From a state with no active session `LOADED`, a command that passes the quota check and
that special processing answers leaves the world special processing left, with the response
enqueued. -/
theorem resourceManagerProcessTpm2Command_of_special {w : World} {command : Tpm2Command}
    {response : Tpm2Response} (hb : SessionsBounded IsSaved w.sessionList)
    (hrc : resourceManagerQuotaCheck w command = tss2RcSuccess)
    (hsp : (commandSpecialProcessing E w command).1 = some response) :
    resourceManagerProcessTpm2Command E w command =
      .ok ((commandSpecialProcessing E w command).2.sinkEnqueue (.response response)) := by
  have hs := @commandSpecialProcessing_bounded E _ _ command isSaved_savedRm (Or.inr rfl) hb
  unfold resourceManagerProcessTpm2Command
  dsimp only
  rw [if_neg (not_not.mpr hrc), hsp]
  dsimp only
  rw [sendResponse_of_not_loaded E (not_loaded_of_bounded hs)]

theorem commandSpecialProcessing_contextLoad (w : World) {command : Tpm2Command}
    {context : TpmsContext} {entry : SessionEntry} (hcode : command.code = tpm2CcContextLoad)
    (hu : tss2MuTpmsContextUnmarshal command.body = .ok context)
    (hs : isSessionType context.savedHandle)
    (hl : w.sessionList.lookupContextClient command.body = some entry)
    (hc : command.connection = entry.connection ∧ entry ∈ w.sessionList.sessionEntrySlist ∨
      command.connection ≠ entry.connection ∧ entry ∈ w.sessionList.abandonedQueue) :
    ∃ list : SessionList, commandSpecialProcessing E w command =
        (some (tpm2ResponseNewContextLoad command.connection entry), w.setSessionList list) ∧
      { entry with connection := command.connection, state := .savedRm } ∈
        list.sessionEntrySlist := by
  have hflush : command.code ≠ tpm2CcFlushContext := by rw [hcode]; decide
  have hsave : command.code ≠ tpm2CcContextSave := by rw [hcode]; decide
  unfold commandSpecialProcessing resourceManagerLoadContext resourceManagerLoadContextSession
  simp only [if_neg hflush, if_neg hsave, if_pos hcode, hu, if_pos hs, hl]
  rcases hc with ⟨hconn, hmem⟩ | ⟨hconn, hmem⟩
  · rw [if_neg (not_not.mpr hconn)]
    refine ⟨_, rfl, SessionList.mem_setState_slist.mpr ⟨entry, hmem, ?_⟩⟩
    simp [hconn]
  · obtain ⟨list', hclaim, hslist⟩ := SessionList.claim_of_mem_abandoned hmem command.connection
    rw [if_pos hconn, hclaim]
    exact ⟨_, rfl, SessionList.mem_setState_slist.mpr
      ⟨{ entry with connection := command.connection }, by simp [hslist], by simp⟩⟩

/-- In every state a run reaches, a command the quota check rejects, or one special processing
answers, makes no AccessBroker call of any kind: the result is the world special processing
left (the world itself on rejection) with the one response enqueued.  Special processing
answers a transient `FlushContext`, which changes only the caller's map, by removing the named
vhandle; a `GetCapability (TPM2_CAP_HANDLES)` of transients, which changes nothing; and a
`ContextSave` of a session the caller owns, which only marks the session `SAVED_CLIENT`. -/
theorem resourceManagerProcessTpm2Command_answered_locally {queue : List (Option QueueItem)}
    {maxTransients maxSessions : Nat} {w : World}
    (hrun : resourceManagerThread E queue (World.initial maxTransients maxSessions) = .ok w)
    (command : Tpm2Command) :
    (resourceManagerQuotaCheck w command ≠ tss2RcSuccess →
      resourceManagerProcessTpm2Command E w command = .ok (w.sinkEnqueue (.response
        (tpm2ResponseNewRc command.connection (resourceManagerQuotaCheck w command))))) ∧
    (∀ response, resourceManagerQuotaCheck w command = tss2RcSuccess →
      (commandSpecialProcessing E w command).1 = some response →
      resourceManagerProcessTpm2Command E w command =
          .ok ((commandSpecialProcessing E w command).2.sinkEnqueue (.response response)) ∧
        (commandSpecialProcessing E w command).2.log = w.log) ∧
    (∀ handle, command.code = tpm2CcFlushContext → command.getFlushHandle = .ok handle →
      handleType handle = tpm2HtTransient → ∃ response,
        resourceManagerProcessTpm2Command E w command = .ok ((w.setMap command.connection
          ((w.maps command.connection).remove handle)).sinkEnqueue (.response response))) ∧
    (command.code = tpm2CcGetCapability → command.getCap = tpm2CapHandles →
      handleType command.getProp = tpm2HtTransient → ∃ response,
        resourceManagerProcessTpm2Command E w command =
          .ok (w.sinkEnqueue (.response response))) ∧
    ∀ entry, command.code = tpm2CcContextSave → isSessionType (command.getHandle 0) →
      w.sessionList.lookupHandle (command.getHandle 0) = some entry →
      command.connection = entry.connection →
      resourceManagerProcessTpm2Command E w command =
        .ok ((w.setSessionList (w.sessionList.setState entry.id .savedClient)).sinkEnqueue
          (.response (tpm2ResponseNewContextSave command.connection entry))) := by
  have hb := resourceManagerThread_preserves_bounded E (initial_bounded _ _) hrun
  have hanswered : ∀ {response w'}, commandSpecialProcessing E w command = (some response, w') →
      resourceManagerQuotaCheck w command = tss2RcSuccess →
      resourceManagerProcessTpm2Command E w command = .ok (w'.sinkEnqueue (.response response)) :=
    fun hsp hq => by
      have h := resourceManagerProcessTpm2Command_of_special E hb hq (congrArg Prod.fst hsp)
      rwa [hsp] at h
  refine ⟨fun hrc => ?_, fun response hrc hsp =>
    ⟨resourceManagerProcessTpm2Command_of_special E hb hrc hsp,
      commandSpecialProcessing_log E w command⟩,
    fun _ hcode hh ht => ?_, fun hcode hcap hprop => ?_, fun _ hcode hs hl hc => ?_⟩
  · unfold resourceManagerProcessTpm2Command
    dsimp only
    rw [if_pos hrc, sendResponse_of_not_loaded E (not_loaded_of_bounded hb)]
  · obtain ⟨response, hsp⟩ := commandSpecialProcessing_flushTransient E w hcode hh ht
    exact ⟨response, hanswered hsp (resourceManagerQuotaCheck_of_code hcode (by decide))⟩
  · obtain ⟨response, hsp⟩ := commandSpecialProcessing_getCapHandles E w hcode hcap hprop
    exact ⟨response, hanswered hsp (resourceManagerQuotaCheck_of_code hcode (by decide))⟩
  · exact hanswered (commandSpecialProcessing_contextSave E w hcode hs hl hc)
      (resourceManagerQuotaCheck_of_code hcode (by decide))

/-- After the claim run, connection 2 saves its own session: the RM answers alone. -/
theorem claimQueue_contextSave_answered_locally :
    ∃ w entry, resourceManagerThread claimEnv claimQueue (World.initial 27 1) = .ok w ∧
      w.sessionList.lookupHandle 0x03000001 = some entry ∧ entry.connection = ⟨2⟩ ∧
      resourceManagerProcessTpm2Command claimEnv w (contextSave ⟨2⟩ 0x03000001) =
        .ok ((w.setSessionList (w.sessionList.setState entry.id .savedClient)).sinkEnqueue
          (.response (tpm2ResponseNewContextSave ⟨2⟩ entry))) := by
  obtain ⟨w, hrun, hl⟩ : ∃ w, resourceManagerThread claimEnv claimQueue
      (World.initial 27 1) = .ok w ∧
      (w.sessionList.lookupHandle 0x03000001).map SessionEntry.connection = some ⟨2⟩ :=
    exists_ok_of_decide (by decide)
  obtain ⟨entry, hl, hc⟩ := Option.map_eq_some'.mp hl
  exact ⟨w, entry, hrun, hl, hc,
    (resourceManagerProcessTpm2Command_answered_locally claimEnv hrun _).2.2.2.2 entry rfl
      (by decide) hl hc.symm⟩

/-- In every state a run reaches, a `ContextLoad` whose body unmarshals to the context of an
HMAC or policy session, and is the client context of a session the caller owns or of one another
connection abandoned, is answered without the TPM: the one response carries the session's
handle, no map changes, and the session is active again, the caller's and `SAVED_RM`. -/
theorem resourceManagerProcessTpm2Command_contextLoad_claimed {queue : List (Option QueueItem)}
    {maxTransients maxSessions : Nat} {w : World}
    (hrun : resourceManagerThread E queue (World.initial maxTransients maxSessions) = .ok w)
    {command : Tpm2Command} {context : TpmsContext} {entry : SessionEntry}
    (hcode : command.code = tpm2CcContextLoad)
    (hu : tss2MuTpmsContextUnmarshal command.body = .ok context)
    (hs : isSessionType context.savedHandle)
    (hl : w.sessionList.lookupContextClient command.body = some entry)
    (hc : command.connection = entry.connection ∧ entry ∈ w.sessionList.sessionEntrySlist ∨
      command.connection ≠ entry.connection ∧ entry ∈ w.sessionList.abandonedQueue) :
    ∃ w', resourceManagerProcessTpm2Command E w command = .ok w' ∧
      w'.sink = w.sink ++ [.response (tpm2ResponseNewContextLoad command.connection entry)] ∧
      w'.log = w.log ∧ w'.maps = w.maps ∧
      { entry with connection := command.connection, state := .savedRm } ∈
        w'.sessionList.sessionEntrySlist := by
  obtain ⟨list, hsp, hmem⟩ := commandSpecialProcessing_contextLoad E w hcode hu hs hl hc
  have hq : resourceManagerQuotaCheck w command = tss2RcSuccess :=
    resourceManagerQuotaCheck_of_code hcode (by decide)
  have hr := resourceManagerProcessTpm2Command_of_special E
    (resourceManagerThread_preserves_bounded E (initial_bounded _ _) hrun) hq
    (congrArg Prod.fst hsp)
  rw [hsp] at hr
  exact ⟨_, hr, rfl, rfl, rfl, hmem⟩

theorem claimQueue_contextLoad_claimed :
    ∃ w, resourceManagerThread claimEnv (claimQueue.take 4) (World.initial 27 1) = .ok w ∧
      ∃ w', resourceManagerProcessTpm2Command claimEnv w (contextLoad ⟨2⟩ sessionContext) =
          .ok w' ∧
        w'.sink = w.sink ++ [.response (tpm2ResponseNewContextLoad ⟨2⟩
          ⟨0, ⟨1⟩, sessionContext, 0x03000000, .savedClientClosed⟩)] ∧
        w'.log = w.log ∧ w'.maps = w.maps ∧
        ⟨0, ⟨2⟩, sessionContext, 0x03000000, .savedRm⟩ ∈ w'.sessionList.sessionEntrySlist := by
  obtain ⟨w, hrun, hl, hmem⟩ : ∃ w, resourceManagerThread claimEnv (claimQueue.take 4)
      (World.initial 27 1) = .ok w ∧
      w.sessionList.lookupContextClient sessionContext =
        some ⟨0, ⟨1⟩, sessionContext, 0x03000000, .savedClientClosed⟩ ∧
      (⟨0, ⟨1⟩, sessionContext, 0x03000000, .savedClientClosed⟩ : SessionEntry) ∈
        w.sessionList.abandonedQueue :=
    exists_ok_of_decide (by decide)
  exact ⟨w, hrun, resourceManagerProcessTpm2Command_contextLoad_claimed claimEnv hrun rfl rfl
    (by decide) hl (.inr ⟨by decide, hmem⟩)⟩

end Tabrmd

/-!
## What the thread passes to its sink

A run that returns maps what it dequeues to what it enqueues item by item (`Forwards`): each
command to one response to its connection, `CONNECTION_REMOVED` and `CHECK_CANCEL` to
themselves, anything else to nothing, up to the first `NULL` or `CHECK_CANCEL`.
-/

namespace Tabrmd

/-- The sink items a run of the thread owes the objects it dequeues, in order. -/
inductive Forwards : List (Option QueueItem) → List SinkItem → Prop
  | nil : Forwards [] []
  | null (rest : List (Option QueueItem)) : Forwards (none :: rest) []
  | command {command : Tpm2Command} {response : Tpm2Response} {rest items}
      (hc : response.connection = command.connection) (h : Forwards rest items) :
      Forwards (some (.command command) :: rest) (.response response :: items)
  | checkCancel (rest : List (Option QueueItem)) :
      Forwards (some (.control .checkCancel) :: rest) [.control .checkCancel]
  | connectionRemoved (connection : Connection) {rest items} (h : Forwards rest items) :
      Forwards (some (.control (.connectionRemoved connection)) :: rest)
        (.control (.connectionRemoved connection) :: items)
  | unknown (code : Nat) {rest items} (h : Forwards rest items) :
      Forwards (some (.control (.unknown code)) :: rest) items
  | other {rest items} (h : Forwards rest items) : Forwards (some .other :: rest) items

variable (E : Env)

/-! ## Only `send_response` and the control path enqueue -/

theorem resourceManagerLoadTransient_sink (cs : CommandState) (handle : UInt32) (i : Nat) :
    (resourceManagerLoadTransient E cs handle i).2.world.sink = cs.world.sink := by
  rcases resourceManagerLoadTransient_cases E cs handle i with
    h | ⟨entry, -, ⟨rc, -, h⟩ | ⟨phandle, -, h⟩⟩ <;> simp [h]

theorem resourceManagerLoadSessionFromHandle_sink (w : World) (c : Connection) (h : UInt32)
    (f : Bool) : (resourceManagerLoadSessionFromHandle E w c h f).2.sink = w.sink := by
  rcases resourceManagerLoadSessionFromHandle_cases E w c h f with
    hr | ⟨entry, -, -, -, ⟨rc, -, hr⟩ | ⟨response, -, hr⟩⟩ <;> simp [hr]

theorem loadContexts_sink {cs cs' : CommandState} (h : loadContexts E cs = .ok cs') :
    cs'.world.sink = cs.world.sink :=
  loadContexts_rec E (fun cs₂ => cs₂.world.sink = cs.world.sink)
    (fun acc ih hacc => by
      unfold loadHandlesBody
      split_ifs
      · exact (resourceManagerLoadTransient_sink E _ _ _).trans hacc
      · exact (resourceManagerLoadSessionFromHandle_sink E _ _ _ _).trans hacc
      · exact hacc)
    (fun cs₂ auth hcs => by
      unfold resourceManagerLoadAuthCallback
      split
      · exact (resourceManagerLoadSessionFromHandle_sink E _ _ _ _).trans hcs
      · exact hcs)
    h rfl

theorem commandSpecialProcessing_sink (w : World) (command : Tpm2Command) :
    (commandSpecialProcessing E w command).2.sink = w.sink := by
  rcases commandSpecialProcessing_world E w command with ⟨l, h⟩ | ⟨handle, h⟩ <;> rw [h] <;> rfl

theorem resourceManagerCreateContextMapping_sink {w : World} {response : Tpm2Response}
    {L : List UInt32} {r : Tpm2Response × List UInt32 × World}
    (h : resourceManagerCreateContextMapping w response L = .ok r) : r.2.2.sink = w.sink := by
  rcases resourceManagerCreateContextMapping_eq_ok h with
    rfl | ⟨-, -, -, -, rfl⟩ | ⟨-, -, -, rfl⟩ <;> simp

theorem saveSessionContexts_sink (w : World) : (saveSessionContexts E w).sink = w.sink :=
  List.foldlRecOn (motive := fun w' : World => w'.sink = w.sink) _ _ _ rfl
    fun w' hw' e _ => by
      rcases resourceManagerSaveSessionContext_cases E w' e with
        ⟨-, hr⟩ | ⟨-, ⟨response, -, hr⟩ | ⟨rc, -, hr⟩⟩ <;> simp [hr, hw']

theorem postProcessLoadedTransients_sink (w : World) (L : List UInt32) (c : Connection)
    (attrs : UInt32) : (postProcessLoadedTransients E w L c attrs).sink = w.sink := by
  induction L generalizing w with
  | nil => simp
  | cons v L ih =>
    rw [postProcessLoadedTransients_cons, ih]
    split
    · rcases resourceManagerFlushsaveContext_cases E w c v with
        ⟨h, -⟩ | ⟨entry, -, -, ⟨rc, -, h⟩ | ⟨ctx, -, h⟩⟩ <;> simp [h]
    · unfold removeEntryFromHandleMap
      split <;> rfl

theorem sendResponse_sink (w : World) (response : Tpm2Response) (L : List UInt32)
    (c : Connection) (attrs : UInt32) :
    (sendResponse E w response L c attrs).sink = w.sink ++ [.response response] := by
  unfold sendResponse
  rw [postProcessLoadedTransients_sink, saveSessionContexts_sink, World.sinkEnqueue_sink]

theorem resourceManagerProcessTpm2Command_sink {w w' : World} {command : Tpm2Command}
    (hr : resourceManagerProcessTpm2Command E w command = .ok w') :
    ∃ response : Tpm2Response, response.connection = command.connection ∧
      w'.sink = w.sink ++ [.response response] := by
  obtain ⟨w₁, response, L, rfl, hc, hcases⟩ := resourceManagerProcessTpm2Command_eq_ok E hr
  refine ⟨response, hc, ?_⟩
  rw [sendResponse_sink]
  rcases hcases with ⟨rfl, -⟩ | ⟨rfl, -⟩ | ⟨cs, response₀, hcs, -, hmap⟩
  · rfl
  · rw [commandSpecialProcessing_sink]
  · rw [resourceManagerCreateContextMapping_sink hmap, World.accessBrokerSendCommand,
      World.record_sink, loadContexts_sink E hcs, commandSpecialProcessing_sink]

theorem flushSessionCallbacks_sink (L : List SessionEntry) (w : World) :
    (L.foldl (fun w e => (flushSessionCallback E w e).2) w).sink = w.sink := by
  induction L generalizing w with
  | nil => rfl
  | cons e L ih => exact (ih _).trans rfl

theorem resourceManagerRemoveConnection_sink {w w' : World} {c : Connection}
    (h : resourceManagerRemoveConnection E w c = .ok w') : w'.sink = w.sink :=
  foldlM_except_rec (fun w' : World => w'.sink = w.sink)
    (fun w₁ e w₂ _ hw₁ hf => by
      unfold connectionCloseSessionCallback at hf
      split_ifs at hf
      · cases hf; exact hw₁
      dsimp only at hf
      split at hf
      · cases hf
        rw [flushSessionCallbacks_sink]
        exact hw₁
      · cases hf
        simpa [World.accessBrokerContextFlush] using hw₁
      · cases hf)
    rfl h

theorem resourceManagerProcessControl_sink {w : World} {msg : ControlMessage} {r : Bool × World}
    (h : resourceManagerProcessControl E w msg = .ok r) :
    r.2.sink = w.sink ++ (match msg with | .unknown _ => [] | msg => [.control msg]) ∧
      (r.1 = false ↔ msg = .checkCancel) := by
  unfold resourceManagerProcessControl at h
  split at h
  · cases h
    exact ⟨rfl, by simp⟩
  · rename_i c
    cases hr : resourceManagerRemoveConnection E w c with
    | error e => simp [hr, Except.map] at h
    | ok w₁ =>
      simp only [hr, Except.map, Except.ok.injEq] at h
      subst h
      exact ⟨by simp [resourceManagerRemoveConnection_sink E hr], by simp⟩
  · cases h
    exact ⟨by simp, by simp⟩

/-! ## Runs of the thread -/

/-- A run of `resource_manager_thread` that returns, whatever the AccessBroker answered,
enqueues after what the sink held exactly the items `Forwards` owes the objects it dequeued:
one response per command, addressed to the command's connection and in command order, each
`CONNECTION_REMOVED` and `CHECK_CANCEL` passed on, nothing for other objects, and nothing after
the first `NULL` or `CHECK_CANCEL`. -/
theorem resourceManagerThread_forwards {queue : List (Option QueueItem)} {w w' : World}
    (h : resourceManagerThread E queue w = .ok w') :
    ∃ items, w'.sink = w.sink ++ items ∧ Forwards queue items := by
  induction queue generalizing w with
  | nil => cases h; exact ⟨[], by simp, .nil⟩
  | cons item rest ih =>
    match item, h with
    | none, h => cases h; exact ⟨[], by simp, .null rest⟩
    | some (.command command), h =>
      simp only [resourceManagerThread] at h
      split at h
      · cases h
      rename_i w₁ h₁
      obtain ⟨response, hc, hs₁⟩ := resourceManagerProcessTpm2Command_sink E h₁
      obtain ⟨items, hs, hf⟩ := ih h
      exact ⟨.response response :: items, by simp [hs, hs₁], .command hc hf⟩
    | some (.control msg), h =>
      simp only [resourceManagerThread] at h
      split at h
      · cases h
      rename_i r hr
      obtain ⟨hs₁, hstop⟩ := resourceManagerProcessControl_sink E hr
      cases msg with
      | checkCancel =>
        rw [if_neg (by simp [hstop])] at h
        cases h
        exact ⟨_, hs₁, .checkCancel rest⟩
      | connectionRemoved c =>
        rw [if_pos (by simpa using hstop)] at h
        obtain ⟨items, hs, hf⟩ := ih h
        exact ⟨_, by simp [hs, hs₁], .connectionRemoved c hf⟩
      | unknown code =>
        rw [if_pos (by simpa using hstop)] at h
        obtain ⟨items, hs, hf⟩ := ih h
        exact ⟨items, by simpa [hs₁] using hs, .unknown code hf⟩
    | some .other, h =>
      obtain ⟨items, hs, hf⟩ := ih h
      exact ⟨items, hs, .other hf⟩

end Tabrmd

/-!
## When the thread aborts

`g_error` ends the process.  From a state whose sessions are all saved, the initial one among
them, it is reached only at a command with more than `TPM2_COMMAND_MAX_HANDLES` handles or one
whose connection's vhandle counter is spent.
-/

namespace Tabrmd

open SessionEntryStateEnum (IsSaved)

variable (E : Env)

theorem loadContexts_error {cs : CommandState} {e : String} (h : loadContexts E cs = .error e) :
    e = "Unable to get handles from command" ∧
      tpm2CommandMaxHandles < cs.command.handles.length := by
  unfold loadContexts resourceManagerLoadHandles at h
  dsimp only at h
  split_ifs at h with h0 hmax <;> simp_all [Except.map]

theorem resourceManagerCreateContextMapping_error {w : World} {response : Tpm2Response}
    {L : List UInt32} {e : String}
    (h : resourceManagerCreateContextMapping w response L = .error e) :
    e = "vhandle rolled over!" ∧
      HandleMap.maxHandleCount ≤ (w.maps response.connection).handleCount := by
  unfold resourceManagerCreateContextMapping at h
  split at h
  · cases h
  split_ifs at h
  · unfold createContextMappingTransient at h
    dsimp only at h
    split_ifs at h with h0
    cases h
    exact ⟨rfl, not_lt.mp fun hlt => HandleMap.nextVhandle_fst_ne_zero_of_lt hlt h0⟩

theorem resourceManagerProcessTpm2Command_error {w : World} {command : Tpm2Command} {e : String}
    (h : resourceManagerProcessTpm2Command E w command = .error e) :
    e = "vhandle rolled over!" ∧
        HandleMap.maxHandleCount ≤ (w.maps command.connection).handleCount ∨
      e = "Unable to get handles from command" ∧
        tpm2CommandMaxHandles < command.handles.length := by
  unfold resourceManagerProcessTpm2Command at h
  dsimp only at h
  split_ifs at h
  split at h
  · cases h
  split at h
  · rename_i e' hl
    cases h
    exact .inr (loadContexts_error E hl)
  split at h
  · rename_i cs hcs _ e' hm
    cases h
    obtain ⟨rfl, hmax⟩ := resourceManagerCreateContextMapping_error hm
    have hc : (match (cs.world.accessBrokerSendCommand E cs.command).1 with
        | .ok tpm => (⟨tpm, command.connection⟩ : Tpm2Response)
        | .error rc => tpm2ResponseNewRc command.connection rc).connection =
          command.connection := by
      split <;> rfl
    have hcount : ∀ d, ((cs.world.accessBrokerSendCommand E cs.command).2.maps d).handleCount =
        (w.maps d).handleCount := fun d => by
      rw [World.accessBrokerSendCommand, World.record_maps, loadContexts_handleCount E hcs,
        commandSpecialProcessing_handleCount]
    exact .inl ⟨rfl, hmax.trans_eq
      ((hcount _).trans (congrArg (fun d => (w.maps d).handleCount) hc))⟩
  · cases h

theorem resourceManagerProcessControl_ok {w : World}
    (hb : SessionsBounded IsSaved w.sessionList) (msg : ControlMessage) :
    ∃ r, resourceManagerProcessControl E w msg = .ok r := by
  cases msg with
  | checkCancel => exact ⟨_, rfl⟩
  | connectionRemoved c =>
    obtain ⟨w', hr, -⟩ := resourceManagerRemoveConnection_closing E hb c
    exact ⟨(true, w'.sinkEnqueue (.control (.connectionRemoved c))),
      by simp [resourceManagerProcessControl, hr, Except.map]⟩
  | unknown _ => exact ⟨_, rfl⟩

/-- From every state whose active sessions are all `SAVED_RM` or `SAVED_CLIENT` and whose
abandoned FIFO is within `MAX_ABANDONED`, the initial one among them, a run of the thread that
aborts does so at a command it dequeued, in the state the messages before it led to, because
the vhandle counter of the command's connection is spent there or because the command has
more than `TPM2_COMMAND_MAX_HANDLES` handles; never on closing a connection. -/
theorem resourceManagerThread_aborts_only {queue : List (Option QueueItem)} {w : World}
    {e : String} (hb : SessionsBounded IsSaved w.sessionList)
    (h : resourceManagerThread E queue w = .error e) :
    ∃ pre command rest w₁, queue = pre ++ some (.command command) :: rest ∧
      resourceManagerThread E pre w = .ok w₁ ∧
      resourceManagerProcessTpm2Command E w₁ command = .error e ∧
      (e = "vhandle rolled over!" ∧
          HandleMap.maxHandleCount ≤ (w₁.maps command.connection).handleCount ∨
        e = "Unable to get handles from command" ∧
          tpm2CommandMaxHandles < command.handles.length) := by
  induction queue generalizing w with
  | nil => cases h
  | cons item rest ih =>
    match item, h with
    | none, h => cases h
    | some (.command command), h =>
      simp only [resourceManagerThread] at h
      split at h
      · rename_i e' hr
        cases h
        exact ⟨[], command, rest, w, rfl, rfl, hr, resourceManagerProcessTpm2Command_error E hr⟩
      · rename_i w₁ hr
        obtain ⟨pre, command', rest', w₂, rfl, hpre, hrest⟩ :=
          ih (resourceManagerProcessTpm2Command_bounded E hb hr) h
        exact ⟨some (.command command) :: pre, command', rest', w₂, rfl,
          by simp only [resourceManagerThread, hr, hpre], hrest⟩
    | some (.control msg), h =>
      obtain ⟨r, hr⟩ := resourceManagerProcessControl_ok E hb msg
      simp only [resourceManagerThread, hr] at h
      split_ifs at h with hcont
      obtain ⟨pre, command', rest', w₂, rfl, hpre, hrest⟩ :=
        ih (resourceManagerProcessControl_bounded E hb hr) h
      exact ⟨some (.control msg) :: pre, command', rest', w₂, rfl,
        by simp only [resourceManagerThread, hr, hcont, if_true, hpre], hrest⟩
    | some .other, h =>
      obtain ⟨pre, command', rest', w₂, rfl, hpre, hrest⟩ := ih hb h
      exact ⟨some .other :: pre, command', rest', w₂, rfl, hpre, hrest⟩

/-- Every run of the thread from its initial state, whatever the AccessBroker answers, either
returns having enqueued exactly what `Forwards` owes the objects it dequeued (one response per
command, addressed to its connection and in command order, `CONNECTION_REMOVED` and
`CHECK_CANCEL` passed on, nothing after the first `NULL` or `CHECK_CANCEL`), or ends the
process in `g_error`, and then only at a dequeued command whose connection's vhandle counter
is spent or which has more than `TPM2_COMMAND_MAX_HANDLES` handles. -/
theorem resourceManagerThread_forwards_unless_aborted (queue : List (Option QueueItem))
    (maxTransients maxSessions : Nat) :
    (∃ w, resourceManagerThread E queue (World.initial maxTransients maxSessions) = .ok w ∧
        Forwards queue w.sink) ∨
      ∃ e, resourceManagerThread E queue (World.initial maxTransients maxSessions) = .error e ∧
        ∃ pre command rest w₁, queue = pre ++ some (.command command) :: rest ∧
          resourceManagerThread E pre (World.initial maxTransients maxSessions) = .ok w₁ ∧
          resourceManagerProcessTpm2Command E w₁ command = .error e ∧
          (e = "vhandle rolled over!" ∧
              HandleMap.maxHandleCount ≤ (w₁.maps command.connection).handleCount ∨
            e = "Unable to get handles from command" ∧
              tpm2CommandMaxHandles < command.handles.length) := by
  cases h : resourceManagerThread E queue (World.initial maxTransients maxSessions) with
  | ok w =>
    obtain ⟨items, hs, hf⟩ := resourceManagerThread_forwards E h
    exact .inl ⟨w, rfl, by simpa [hs, World.initial] using hf⟩
  | error e =>
    exact .inr ⟨e, rfl, resourceManagerThread_aborts_only E (initial_bounded _ _) h⟩

end Tabrmd
