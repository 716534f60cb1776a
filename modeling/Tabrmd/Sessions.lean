import Tabrmd.Frame

/-!
# Session states between commands

Between messages every active session is `SAVED_RM` or `SAVED_CLIENT` and owned by a live
connection, and every abandoned one is `SAVED_CLIENT_CLOSED`; `SessionsOwned ok removed list`
states this for the states `ok` allows.
-/

namespace Tabrmd

/-- The states a session may be in between two messages. -/
def SessionEntryStateEnum.IsSaved (s : SessionEntryStateEnum) : Prop :=
  s = .savedRm ∨ s = .savedClient

structure SessionsOwned (ok : SessionEntryStateEnum → Prop) (removed : List Connection)
    (list : SessionList) : Prop where
  active : ∀ e ∈ list.sessionEntrySlist, ok e.state ∧ e.connection ∉ removed
  abandoned : ∀ e ∈ list.abandonedQueue, e.state = .savedClientClosed ∧ e.connection ∈ removed

/-- The states a session may be in while a command is processed. -/
def SessionEntryStateEnum.IsLive (s : SessionEntryStateEnum) : Prop :=
  s ≠ .savedClientClosed

open SessionEntryStateEnum (IsSaved IsLive)

theorem SessionEntryStateEnum.IsSaved.isLive {s : SessionEntryStateEnum} (h : s.IsSaved) :
    s.IsLive := by
  rcases h with rfl | rfl <;> simp [SessionEntryStateEnum.IsLive]

namespace SessionsOwned

variable {ok : SessionEntryStateEnum → Prop} {removed : List Connection} {list : SessionList}

theorem mono (h : SessionsOwned ok removed list) {ok' : SessionEntryStateEnum → Prop}
    (hok : ∀ s, ok s → ok' s) : SessionsOwned ok' removed list :=
  ⟨fun e he => (h.active e he).imp_left (hok _), h.abandoned⟩

theorem remove (h : SessionsOwned ok removed list) (entry : SessionEntry) :
    SessionsOwned ok removed (list.remove entry) :=
  ⟨fun e he => h.active e (SessionList.mem_remove_slist.mp he).1, h.abandoned⟩

theorem removeHandle (h : SessionsOwned ok removed list) (handle : UInt32) :
    SessionsOwned ok removed (list.removeHandle handle) :=
  ⟨fun e he => h.active e (SessionList.mem_removeHandle_slist.mp he).1,
    fun e he => h.abandoned e (SessionList.mem_removeHandle_queue.mp he).1⟩

theorem insert (h : SessionsOwned ok removed list) {connection : Connection}
    {handle : UInt32} {state : SessionEntryStateEnum} (hs : ok state)
    (hc : connection ∉ removed) :
    SessionsOwned ok removed (list.insert connection handle state) := by
  refine ⟨fun e he => ?_, h.abandoned⟩
  rcases SessionList.mem_insert_slist.mp he with he | rfl
  · exact h.active e he
  · exact ⟨hs, hc⟩

theorem setContext (h : SessionsOwned ok removed list) (id : Nat) (context : List UInt8) :
    SessionsOwned ok removed (list.setContext id context) := by
  constructor
  · intro e he
    obtain ⟨y, hy, rfl⟩ := SessionList.mem_modify_slist.mp he
    split_ifs <;> exact h.active y hy
  · intro e he
    obtain ⟨y, hy, rfl⟩ := SessionList.mem_modify_queue.mp he
    split_ifs <;> exact h.abandoned y hy

theorem setState (h : SessionsOwned ok removed list) {id : Nat}
    {state : SessionEntryStateEnum} (hs : ok state)
    (hq : ∀ y ∈ list.abandonedQueue, y.id ≠ id) :
    SessionsOwned ok removed (list.setState id state) := by
  refine ⟨fun e he => ?_, by
    rw [SessionList.setState_queue_of_forall_ne hq]; exact h.abandoned⟩
  obtain ⟨y, hy, rfl⟩ := SessionList.mem_modify_slist.mp he
  split_ifs
  · exact ⟨hs, (h.active y hy).2⟩
  · exact h.active y hy

theorem setState_of_mem {x : SessionEntry} (hx : x ∈ list.sessionEntrySlist)
    {state : SessionEntryStateEnum} (hs : ok state) (hc : x.connection ∉ removed)
    (hact : ∀ e ∈ list.sessionEntrySlist, e.id ≠ x.id → ok e.state ∧ e.connection ∉ removed)
    (hq : ∀ e ∈ list.abandonedQueue, e.state = .savedClientClosed ∧ e.connection ∈ removed) :
    SessionsOwned ok removed (list.setState x.id state) := by
  refine ⟨fun e he => ?_, by
    rw [SessionList.setState, SessionList.modify_queue_of_mem hx]; exact hq⟩
  obtain ⟨y, hy, rfl⟩ := SessionList.mem_modify_slist.mp he
  split_ifs with hyx
  · have := SessionList.eq_of_id_eq (List.mem_append_left _ hy) (List.mem_append_left _ hx) hyx
    subst this
    exact ⟨hs, hc⟩
  · exact hact y hy hyx

end SessionsOwned

theorem isSaved_savedRm : IsSaved .savedRm := Or.inl rfl

theorem isLive_loaded : IsLive .loaded := by
  simp [IsLive]

variable (E : Env) {removed : List Connection}

/-! ## Special processing -/

theorem resourceManagerSaveContextSession_owned {w : World} {command : Tpm2Command}
    (h : SessionsOwned IsSaved removed w.sessionList) :
    SessionsOwned IsSaved removed (resourceManagerSaveContextSession w command).2.sessionList := by
  unfold resourceManagerSaveContextSession
  dsimp only
  rcases hl : w.sessionList.lookupHandle (command.getHandle 0) with _ | entry
  · exact h
  obtain ⟨hmem, -⟩ := SessionList.lookupHandle_eq_some hl
  dsimp only
  split_ifs
  · exact h
  · exact SessionsOwned.setState_of_mem hmem (Or.inr rfl) (h.active _ hmem).2
      (fun e he _ => h.active e he) h.abandoned

theorem resourceManagerLoadContextSession_owned {w : World} {command : Tpm2Command}
    (h : SessionsOwned IsSaved removed w.sessionList) (hc : command.connection ∉ removed) :
    SessionsOwned IsSaved removed (resourceManagerLoadContextSession w command).2.sessionList := by
  unfold resourceManagerLoadContextSession
  rcases hl : w.sessionList.lookupContextClient command.body with _ | entry
  · exact h
  obtain ⟨hmem, -⟩ := SessionList.lookupContextClient_eq_some hl
  dsimp only
  by_cases hconn : command.connection ≠ entry.connection
  · rw [if_pos hconn]
    cases hcl : w.sessionList.claim entry command.connection with
    | none => exact h
    | some list =>
      obtain ⟨e, heq, hid, hs, hq⟩ := SessionList.claim_eq_some hcl
      have hx : { e with connection := command.connection } ∈ list.sessionEntrySlist := by
        simp [hs]
      rw [← hid]
      refine SessionsOwned.setState_of_mem hx isSaved_savedRm hc (fun y hy hyx => ?_)
        fun y hy => ?_
      · rw [hs, List.mem_append, List.mem_singleton] at hy
        rcases hy with hy | rfl
        · exact h.active y hy
        · exact absurd rfl hyx
      · rw [hq] at hy
        exact h.abandoned y (List.mem_of_mem_erase hy)
  · rw [if_neg hconn]
    push_neg at hconn
    have hact : entry ∈ w.sessionList.sessionEntrySlist := by
      rcases List.mem_append.mp hmem with hmem | hmem
      · exact hmem
      · exact absurd (hconn ▸ (h.abandoned entry hmem).2) hc
    exact SessionsOwned.setState_of_mem hact isSaved_savedRm (h.active _ hact).2
      (fun e he _ => h.active e he) h.abandoned

theorem commandSpecialProcessing_owned {w : World} {command : Tpm2Command}
    (h : SessionsOwned IsSaved removed w.sessionList) (hc : command.connection ∉ removed) :
    SessionsOwned IsSaved removed (commandSpecialProcessing E w command).2.sessionList := by
  rcases commandSpecialProcessing_cases E w command with
    hr | ⟨-, handle, -, -, hr⟩ | ⟨-, handle, -, -, hr⟩ | ⟨-, -, hr⟩ | ⟨-, hr⟩ <;> rw [hr]
  · exact h
  · exact h
  · exact h.removeHandle handle
  · exact resourceManagerSaveContextSession_owned h
  · exact resourceManagerLoadContextSession_owned h hc

/-! ## Loading -/

theorem resourceManagerLoadSessionFromHandle_owned {w : World} {c : Connection}
    {handle : UInt32} {willFlush : Bool} (h : SessionsOwned IsLive removed w.sessionList) :
    SessionsOwned IsLive removed
      (resourceManagerLoadSessionFromHandle E w c handle willFlush).2.sessionList := by
  rcases resourceManagerLoadSessionFromHandle_cases E w c handle willFlush with
    hr | ⟨entry, hl, -, -, ⟨rc, -, hr⟩ | ⟨response, -, hr⟩⟩ <;> rw [hr]
  · exact h
  · exact h.remove entry
  · have h' : SessionsOwned IsLive removed (w.sessionList.setState entry.id .loaded) :=
      h.setState isLive_loaded
        (SessionList.id_not_mem_abandoned (SessionList.lookupHandle_eq_some hl).1)
    split
    · exact h'.remove entry
    · exact h'

theorem loadHandlesBody_owned {acc : UInt32 × CommandState} (ih : Nat × UInt32)
    (h : SessionsOwned IsLive removed acc.2.world.sessionList) :
    SessionsOwned IsLive removed (loadHandlesBody E acc ih).2.world.sessionList := by
  unfold loadHandlesBody
  split_ifs
  · rw [(resourceManagerLoadTransient_frame E acc.2 ih.2 ih.1).2.1]
    exact h
  · exact resourceManagerLoadSessionFromHandle_owned E h
  · exact h

theorem resourceManagerLoadAuthCallback_owned {cs : CommandState} (auth : TpmsAuthCommand)
    (h : SessionsOwned IsLive removed cs.world.sessionList) :
    SessionsOwned IsLive removed (resourceManagerLoadAuthCallback E cs auth).world.sessionList := by
  unfold resourceManagerLoadAuthCallback
  split_ifs
  · exact resourceManagerLoadSessionFromHandle_owned E h
  · exact h

theorem loadContexts_owned {cs cs' : CommandState} (hr : loadContexts E cs = .ok cs')
    (h : SessionsOwned IsLive removed cs.world.sessionList) :
    SessionsOwned IsLive removed cs'.world.sessionList :=
  loadContexts_rec E (fun cs₂ => SessionsOwned IsLive removed cs₂.world.sessionList)
    (fun _ ih hacc => loadHandlesBody_owned E ih hacc)
    (fun _ auth hcs => resourceManagerLoadAuthCallback_owned E auth hcs) hr h

theorem resourceManagerCreateContextMapping_owned {w : World} {response : Tpm2Response}
    {L : List UInt32} {r : Tpm2Response × List UInt32 × World}
    (hmap : resourceManagerCreateContextMapping w response L = .ok r)
    (hc : response.connection ∉ removed) (h : SessionsOwned IsLive removed w.sessionList) :
    SessionsOwned IsLive removed r.2.2.sessionList := by
  rcases resourceManagerCreateContextMapping_eq_ok hmap with
    rfl | ⟨-, -, -, -, rfl⟩ | ⟨-, -, -, rfl⟩
  · exact h
  · exact h
  · unfold createContextMappingSession
    split
    · exact h
    · exact h.insert isLive_loaded hc

/-! ## The save pass of `send_response` -/

theorem resourceManagerSaveSessionContext_step {w : World} {e : SessionEntry}
    (h : SessionsOwned IsLive removed w.sessionList)
    (hq : ∀ y ∈ w.sessionList.abandonedQueue, y.id ≠ e.id) :
    let w' := resourceManagerSaveSessionContext E w e
    SessionsOwned IsLive removed w'.sessionList ∧
      w'.sessionList.abandonedQueue = w.sessionList.abandonedQueue ∧
      ∀ x ∈ w'.sessionList.sessionEntrySlist, x.state = .loaded →
        x ∈ w.sessionList.sessionEntrySlist ∧ (e.state = .loaded → x.id ≠ e.id) := by
  rcases resourceManagerSaveSessionContext_cases E w e with
    ⟨hs, hr⟩ | ⟨-, ⟨response, -, hr⟩ | ⟨rc, -, hr⟩⟩ <;> rw [hr]
  · exact ⟨h, rfl, fun x hx _ => ⟨hx, fun h' => absurd h' hs⟩⟩
  · have hq' := SessionList.setContext_queue_of_forall_ne hq response.body
    refine ⟨(h.setContext _ _).setState isSaved_savedRm.isLive (hq' ▸ hq), ?_, ?_⟩
    · exact (SessionList.setState_queue_of_forall_ne (hq' ▸ hq) _).trans hq'
    · intro x hx hxs
      obtain ⟨y, hy, rfl⟩ := SessionList.mem_setState_slist.mp hx
      obtain ⟨z, hz, rfl⟩ := SessionList.mem_setContext_slist.mp hy
      by_cases hze : z.id = e.id
      · simp [hze] at hxs
      · simp only [hze, if_false] at hxs ⊢
        exact ⟨hz, fun _ => hze⟩
  · exact ⟨h.remove e, rfl, fun x hx _ =>
      ⟨(SessionList.mem_remove_slist.mp hx).1, fun _ => (SessionList.mem_remove_slist.mp hx).2⟩⟩

theorem foldl_saveSessionContext_owned (L : List SessionEntry) {w : World}
    (h : SessionsOwned IsLive removed w.sessionList)
    (hq : ∀ e ∈ L, ∀ y ∈ w.sessionList.abandonedQueue, y.id ≠ e.id)
    (hcover : ∀ x ∈ w.sessionList.sessionEntrySlist, x.state = .loaded →
      ∃ e ∈ L, e.id = x.id ∧ e.state = .loaded) :
    SessionsOwned IsSaved removed
      (L.foldl (resourceManagerSaveSessionContext E) w).sessionList := by
  induction L generalizing w with
  | nil =>
    refine ⟨fun x hx => ⟨?_, (h.active x hx).2⟩, h.abandoned⟩
    have hlive := (h.active x hx).1
    cases hs : x.state
    · exact Or.inl rfl
    · exact Or.inr rfl
    · exact absurd hs hlive
    · obtain ⟨_, he, _⟩ := hcover x hx hs
      exact absurd he (List.not_mem_nil _)
  | cons e L ih =>
    obtain ⟨h₁, hq₁, hloaded⟩ :=
      resourceManagerSaveSessionContext_step E h (hq e (List.mem_cons_self _ _))
    refine ih h₁ (fun e' he' => hq₁ ▸ hq e' (List.mem_cons_of_mem _ he')) fun x hx hxs => ?_
    obtain ⟨hxw, hne⟩ := hloaded x hx hxs
    obtain ⟨e', he', hid, hst⟩ := hcover x hxw hxs
    rcases List.mem_cons.mp he' with rfl | he'
    · exact absurd hid.symm (hne hst)
    · exact ⟨e', he', hid, hst⟩

theorem saveSessionContexts_owned {w : World}
    (h : SessionsOwned IsLive removed w.sessionList) :
    SessionsOwned IsSaved removed (saveSessionContexts E w).sessionList :=
  foldl_saveSessionContext_owned E _ h
    (fun _ he => SessionList.id_not_mem_abandoned he)
    (fun x hx hxs => ⟨x, hx, rfl, hxs⟩)

theorem sendResponse_owned {w : World} {response : Tpm2Response} {L : List UInt32}
    {c : Connection} {attrs : UInt32} (h : SessionsOwned IsLive removed w.sessionList) :
    SessionsOwned IsSaved removed (sendResponse E w response L c attrs).sessionList := by
  unfold sendResponse
  rw [(postProcessLoadedTransients_frame E _ L c attrs).1]
  exact saveSessionContexts_owned E h

/-! ## One command -/

/-- A command of a live connection, on every path, leaves every session saved. -/
theorem resourceManagerProcessTpm2Command_owned {w w' : World} {command : Tpm2Command}
    (h : SessionsOwned IsSaved removed w.sessionList) (hc : command.connection ∉ removed)
    (hr : resourceManagerProcessTpm2Command E w command = .ok w') :
    SessionsOwned IsSaved removed w'.sessionList := by
  have hs := commandSpecialProcessing_owned E h hc
  obtain ⟨w₁, response, L, rfl, -, hcases⟩ := resourceManagerProcessTpm2Command_eq_ok E hr
  refine sendResponse_owned E ?_
  rcases hcases with ⟨rfl, -⟩ | ⟨rfl, -⟩ | ⟨cs, response₀, hcs, hc₀, hmap⟩
  · exact h.mono fun _ hs => hs.isLive
  · exact hs.mono fun _ hs => hs.isLive
  · exact resourceManagerCreateContextMapping_owned hmap (hc₀ ▸ hc)
      (loadContexts_owned E hcs (hs.mono fun _ hs => hs.isLive))

/-! ## Connection close -/

theorem foldl_flushSessionCallback_sessionList (L : List SessionEntry) (w : World) :
    (L.foldl (fun w e => (flushSessionCallback E w e).2) w).sessionList = w.sessionList := by
  induction L generalizing w with
  | nil => rfl
  | cons e L ih => exact (ih _).trans rfl

/-- The closing connection's abandoned sessions join the FIFO in state
`SAVED_CLIENT_CLOSED`. -/
def AbandonedClosed (removed : List Connection) (list : SessionList) : Prop :=
  ∀ e ∈ list.abandonedQueue, e.state = .savedClientClosed ∧ e.connection ∈ removed

theorem connectionCloseSessionCallback_step {c : Connection} {w : World}
    {A L : List SessionEntry} {e : SessionEntry}
    (hw : w.sessionList.sessionEntrySlist = A ++ e :: L) (hA : ∀ a ∈ A, a.connection ≠ c)
    (he : e.connection = c → e.state.IsSaved)
    (hq : AbandonedClosed (removed ++ [c]) w.sessionList) :
    ∃ w', connectionCloseSessionCallback E c w e = .ok w' ∧
      w'.sessionList.sessionEntrySlist = A ++ [e].filter (·.connection != c) ++ L ∧
      AbandonedClosed (removed ++ [c]) w'.sessionList := by
  unfold connectionCloseSessionCallback
  by_cases hec : e.connection = c
  · rw [if_neg (not_not.mpr hec),
      show [e].filter (·.connection != c) = [] by simp [hec], List.append_nil]
    rcases he hec with hs | hs <;> rw [hs]
    · exact ⟨_, rfl, SessionList.remove_slist_of_eq hw, hq⟩
    · obtain ⟨hs', hq'⟩ := SessionList.abandonHandle_of_eq hw hA hec
      refine ⟨_, rfl, by rw [foldl_flushSessionCallback_sessionList]; exact hs', fun y hy => ?_⟩
      rw [foldl_flushSessionCallback_sessionList] at hy
      replace hy := List.mem_of_mem_drop hy
      rw [hq', List.mem_append, List.mem_singleton] at hy
      rcases hy with hy | rfl
      · exact hq y hy
      · exact ⟨rfl, hec ▸ List.mem_append_right _ (List.mem_singleton_self _)⟩
  · rw [if_pos hec]
    exact ⟨w, rfl, by simp [hw, hec], hq⟩

theorem foldlM_connectionCloseSessionCallback (c : Connection) (L : List SessionEntry) :
    ∀ (A : List SessionEntry) (w : World), w.sessionList.sessionEntrySlist = A ++ L →
      (∀ a ∈ A, a.connection ≠ c) → (∀ e ∈ L, e.connection = c → e.state.IsSaved) →
      AbandonedClosed (removed ++ [c]) w.sessionList →
      ∃ w', L.foldlM (connectionCloseSessionCallback E c) w = .ok w' ∧
        w'.sessionList.sessionEntrySlist = A ++ L.filter (·.connection != c) ∧
        AbandonedClosed (removed ++ [c]) w'.sessionList := by
  induction L with
  | nil => exact fun A w hw _ _ hq => ⟨w, rfl, by simpa using hw, hq⟩
  | cons e L ih =>
    intro A w hw hA he hq
    obtain ⟨w₁, h₁, hs₁, hq₁⟩ :=
      connectionCloseSessionCallback_step E hw hA (he e (List.mem_cons_self _ _)) hq
    have hA₁ : ∀ a ∈ A ++ [e].filter (·.connection != c), a.connection ≠ c := by
      intro a ha
      rcases List.mem_append.mp ha with ha | ha
      · exact hA a ha
      · exact bne_iff_ne.mp (List.mem_filter.mp ha).2
    obtain ⟨w', h', hs', hq'⟩ :=
      ih _ w₁ hs₁ hA₁ (fun e' he' => he e' (List.mem_cons_of_mem _ he')) hq₁
    refine ⟨w', by rw [List.foldlM_cons, h₁]; exact h', ?_, hq'⟩
    rw [hs', List.append_assoc, ← List.filter_append]
    rfl

theorem resourceManagerRemoveConnection_owned {w : World} (c : Connection)
    (h : SessionsOwned IsSaved removed w.sessionList) :
    ∃ w', resourceManagerRemoveConnection E w c = .ok w' ∧
      SessionsOwned IsSaved (removed ++ [c]) w'.sessionList := by
  obtain ⟨w', hr, hs, hq⟩ := foldlM_connectionCloseSessionCallback E c
    w.sessionList.sessionEntrySlist [] w rfl (fun _ ha => absurd ha (List.not_mem_nil _))
    (fun e he _ => (h.active e he).1)
    (fun e he => ⟨(h.abandoned e he).1, List.mem_append_left _ (h.abandoned e he).2⟩)
  refine ⟨w', hr, fun x hx => ?_, hq⟩
  rw [hs, List.nil_append, List.mem_filter] at hx
  obtain ⟨hx, hxc⟩ := hx
  refine ⟨(h.active x hx).1, fun hmem => ?_⟩
  rcases List.mem_append.mp hmem with hmem | hmem
  · exact (h.active x hx).2 hmem
  · exact bne_iff_ne.mp hxc (List.mem_singleton.mp hmem)

/-! ## Runs of the thread -/

/-- The connections whose `CONNECTION_REMOVED` the thread handles before it stops. -/
def removedConnections : List (Option QueueItem) → List Connection
  | [] => []
  | none :: _ => []
  | some (.command _) :: rest => removedConnections rest
  | some (.control .checkCancel) :: _ => []
  | some (.control (.connectionRemoved c)) :: rest => c :: removedConnections rest
  | some (.control (.unknown _)) :: rest => removedConnections rest
  | some .other :: rest => removedConnections rest

/-- No command of a connection comes after the connection's `CONNECTION_REMOVED`, up to
where the thread stops; `removed` are the connections removed before the queue. -/
def commandsFromLive : List Connection → List (Option QueueItem) → Bool
  | _, [] => true
  | _, none :: _ => true
  | removed, some (.command command) :: rest =>
    decide (command.connection ∉ removed) && commandsFromLive removed rest
  | _, some (.control .checkCancel) :: _ => true
  | removed, some (.control (.connectionRemoved c)) :: rest =>
    commandsFromLive (removed ++ [c]) rest
  | removed, some (.control (.unknown _)) :: rest => commandsFromLive removed rest
  | removed, some .other :: rest => commandsFromLive removed rest

theorem resourceManagerThread_owned {queue : List (Option QueueItem)} {w w' : World}
    (h : SessionsOwned IsSaved removed w.sessionList)
    (hlive : commandsFromLive removed queue = true)
    (hr : resourceManagerThread E queue w = .ok w') :
    SessionsOwned IsSaved (removed ++ removedConnections queue) w'.sessionList := by
  induction queue generalizing removed w with
  | nil => cases hr; simpa [removedConnections] using h
  | cons item rest ih =>
    match item, hr, hlive with
    | none, hr, _ => cases hr; simpa [removedConnections] using h
    | some (.command command), hr, hlive =>
      simp only [commandsFromLive, Bool.and_eq_true, decide_eq_true_eq] at hlive
      simp only [resourceManagerThread] at hr
      split at hr
      · cases hr
      · exact ih (resourceManagerProcessTpm2Command_owned E h hlive.1 ‹_›) hlive.2 hr
    | some (.control .checkCancel), hr, _ =>
      cases hr
      simpa [removedConnections] using h
    | some (.control (.connectionRemoved c)), hr, hlive =>
      obtain ⟨w₁, h₁, hs₁⟩ := resourceManagerRemoveConnection_owned E c h
      simp only [resourceManagerThread, resourceManagerProcessControl, h₁, Except.map,
        if_true] at hr
      have hs₂ : SessionsOwned IsSaved (removed ++ [c])
          (w₁.sinkEnqueue (.control (.connectionRemoved c))).sessionList := hs₁
      simpa [removedConnections] using ih hs₂ hlive hr
    | some (.control (.unknown _)), hr, hlive => exact ih h hlive hr
    | some .other, hr, hlive => exact ih h hlive hr

theorem initial_owned (maxTransients maxSessions : Nat) :
    SessionsOwned IsSaved [] (World.initial maxTransients maxSessions).sessionList :=
  ⟨fun _ he => absurd he (List.not_mem_nil _), fun _ he => absurd he (List.not_mem_nil _)⟩

/-- At every message boundary of a run in which no connection sends a command after its
`CONNECTION_REMOVED`, every active session is saved and owned by a connection not removed,
every abandoned session is `SAVED_CLIENT_CLOSED`, and closing any connection succeeds. -/
theorem resourceManagerThread_sessionsSaved {queue : List (Option QueueItem)}
    {maxTransients maxSessions : Nat} {w : World} (hlive : commandsFromLive [] queue = true)
    (hrun : resourceManagerThread E queue (World.initial maxTransients maxSessions) = .ok w) :
    SessionsOwned IsSaved (removedConnections queue) w.sessionList ∧
      ∀ c, ∃ w', resourceManagerRemoveConnection E w c = .ok w' := by
  have h := resourceManagerThread_owned E (initial_owned maxTransients maxSessions) hlive hrun
  rw [List.nil_append] at h
  exact ⟨h, fun c => (resourceManagerRemoveConnection_owned E c h).imp fun _ => And.left⟩

/-! ## A session claimed past the cap

A client starts a session, saves it and disconnects; the session is abandoned.  A second
client, whose session cap is 1, starts a session of its own and then loads the first one's
context: `resource_manager_load_context_session` claims it for the second client without a
quota check. -/

/-- The context bytes the TPM gives for session `0x03000000`: sequence 1, the saved handle,
the owner hierarchy and an empty blob. -/
def sessionContext : List UInt8 := be64 1 ++ be32 0x03000000 ++ be32 0x40000001 ++ be16 0

def sessionContext' : List UInt8 := be64 2 ++ be32 0x03000001 ++ be32 0x40000001 ++ be16 0

/-- An AccessBroker whose TPM starts session `0x03000000`, then `0x03000001`, and saves each
into its context. -/
def claimEnv : Env where
  sendCommand := fun log _ =>
    if log.length = 0 then .ok ⟨0, some 0x03000000, [], fun _ => rfl⟩
    else .ok ⟨0, some 0x03000001, [], fun _ => rfl⟩
  sendContextLoad := fun _ _ => .error 1
  sendContextSave := fun _ h =>
    if h = 0x03000000 then .ok ⟨0, none, sessionContext, by simp⟩
    else .ok ⟨0, none, sessionContext', by simp⟩
  contextLoad := fun _ _ => .error 1
  contextSaveflush := fun _ _ => .error 1
  contextFlush := fun _ _ => 0
  stackSavedHandle := fun _ _ => 0

/-- `TPM2_StartAuthSession` with no salt key and no bind object. -/
def startAuthSession (c : Connection) : Tpm2Command :=
  ⟨c, tpm2CcStartAuthSession, 0, [0x40000007, 0x40000007], [], []⟩

def contextSave (c : Connection) (handle : UInt32) : Tpm2Command :=
  ⟨c, tpm2CcContextSave, 0, [handle], [], []⟩

def contextLoad (c : Connection) (context : List UInt8) : Tpm2Command :=
  ⟨c, tpm2CcContextLoad, 0, [], [], context⟩

def claimQueue : List (Option QueueItem) :=
  [some (.command (startAuthSession ⟨1⟩)), some (.command (contextSave ⟨1⟩ 0x03000000)),
    some (.control (.connectionRemoved ⟨1⟩)), some (.command (startAuthSession ⟨2⟩)),
    some (.command (contextLoad ⟨2⟩ sessionContext))]

theorem claimQueue_sessionsSaved :
    commandsFromLive [] claimQueue = true ∧
      ∃ w, resourceManagerThread claimEnv claimQueue (World.initial 27 1) = .ok w ∧
        SessionsOwned IsSaved (removedConnections claimQueue) w.sessionList ∧
        ∀ c, ∃ w', resourceManagerRemoveConnection claimEnv w c = .ok w' := by
  have hlive : commandsFromLive [] claimQueue = true := by decide
  obtain ⟨w, hrun, -⟩ : ∃ w, resourceManagerThread claimEnv claimQueue
      (World.initial 27 1) = .ok w ∧ True :=
    exists_ok_of_decide (by decide)
  exact ⟨hlive, w, hrun, resourceManagerThread_sessionsSaved claimEnv hlive hrun⟩

/-- With a session cap of 1, the live second client owns two sessions. -/
theorem claimQueue_exceeds_session_cap :
    ∃ w, resourceManagerThread claimEnv claimQueue (World.initial 27 1) = .ok w ∧
      commandsFromLive [] claimQueue = true ∧ (⟨2⟩ : Connection) ∉ removedConnections claimQueue ∧
      (w.sessionList.sessionEntrySlist.filter (·.connection == ⟨2⟩)).length = 2 :=
  exists_ok_of_decide (by decide)

/-! ## A session the TPM flushes although the command fails

A client starts a session and names it in the authorisation area of a command with
`continueSession` clear.  The RM loads the session and drops it from the list, expecting the
TPM to flush it with the command; the TPM rejects the command and keeps the session loaded. -/

/-- An AccessBroker whose TPM starts session `0x03000000`, loads and saves its context, and
rejects every later command with `TPM2_RC_INITIALIZE`. -/
def auditEnv : Env where
  sendCommand := fun log _ =>
    if log.length = 0 then .ok ⟨0, some 0x03000000, [], fun _ => rfl⟩
    else .ok ⟨0x100, none, [], by simp⟩
  sendContextLoad := fun _ _ => .ok ⟨0, some 0x03000000, [], fun _ => rfl⟩
  sendContextSave := fun _ _ => .ok ⟨0, none, sessionContext, by simp⟩
  contextLoad := fun _ _ => .error 1
  contextSaveflush := fun _ _ => .error 1
  contextFlush := fun _ _ => 0
  stackSavedHandle := fun _ _ => 0

/-- `TPM2_GetRandom` (command code `0x17B`) of 8 bytes with session `s`, `continueSession`
clear. -/
def getRandomWithSession (c : Connection) (s : UInt32) : Tpm2Command :=
  ⟨c, 0x17B, 0, [], [⟨s, [], 0, []⟩], [0, 8]⟩

def auditQueue : List (Option QueueItem) :=
  [some (.command (startAuthSession ⟨1⟩)), some (.command (getRandomWithSession ⟨1⟩ 0x03000000))]

/-- Every call the RM issues succeeds, yet the TPM still holds the session. -/
theorem auditQueue_leaves_session_loaded :
    ∃ w, resourceManagerThread auditEnv auditQueue (World.initial 27 3) = .ok w ∧
      (∀ ev ∈ w.log, ev.rmCallOk = true) ∧ loadedSessions w.log = [0x03000000] ∧
      w.sessionList.sessionEntrySlist = [] :=
  exists_ok_of_decide (by decide)

end Tabrmd

/-!
## Session states at every message boundary, whatever the messages

Between two messages of every run no active session is `LOADED` or `SAVED_CLIENT_CLOSED`, and
at most `MAX_ABANDONED` are abandoned, whatever the order of commands and removals.
-/

namespace Tabrmd

open SessionEntryStateEnum (IsSaved IsLive)

/-- Every active session is in a state `ok` allows, and the abandoned FIFO is no longer than
`MAX_ABANDONED`. -/
structure SessionsBounded (ok : SessionEntryStateEnum → Prop) (list : SessionList) : Prop where
  active : ∀ e ∈ list.sessionEntrySlist, ok e.state
  abandoned_le : list.abandonedQueue.length ≤ maxAbandoned

namespace SessionsBounded

variable {ok : SessionEntryStateEnum → Prop} {list : SessionList}

theorem mono (h : SessionsBounded ok list) {ok' : SessionEntryStateEnum → Prop}
    (hok : ∀ s, ok s → ok' s) : SessionsBounded ok' list :=
  ⟨fun e he => hok _ (h.active e he), h.abandoned_le⟩

theorem modify (h : SessionsBounded ok list) {id : Nat} {f : SessionEntry → SessionEntry} {hf}
    (hok : ∀ e ∈ list.sessionEntrySlist, e.id = id → ok (f e).state) :
    SessionsBounded ok (list.modify id f hf) := by
  refine ⟨fun x hx => ?_, by simpa [SessionList.modify] using h.abandoned_le⟩
  obtain ⟨y, hy, rfl⟩ := SessionList.mem_modify_slist.mp hx
  split_ifs with hid
  · exact hok y hy hid
  · exact h.active y hy

theorem setState (h : SessionsBounded ok list) (id : Nat) {state : SessionEntryStateEnum}
    (hs : ok state) : SessionsBounded ok (list.setState id state) :=
  h.modify fun _ _ _ => hs

theorem setContext (h : SessionsBounded ok list) (id : Nat) (context : List UInt8) :
    SessionsBounded ok (list.setContext id context) :=
  h.modify fun e he _ => h.active e he

theorem remove (h : SessionsBounded ok list) (entry : SessionEntry) :
    SessionsBounded ok (list.remove entry) :=
  ⟨fun e he => h.active e (SessionList.mem_remove_slist.mp he).1, h.abandoned_le⟩

theorem removeHandle (h : SessionsBounded ok list) (handle : UInt32) :
    SessionsBounded ok (list.removeHandle handle) :=
  ⟨fun e he => h.active e (SessionList.mem_removeHandle_slist.mp he).1,
    (List.length_filter_le _ _).trans h.abandoned_le⟩

theorem insert (h : SessionsBounded ok list) (connection : Connection) (handle : UInt32)
    {state : SessionEntryStateEnum} (hs : ok state) :
    SessionsBounded ok (list.insert connection handle state) := by
  refine ⟨fun e he => ?_, h.abandoned_le⟩
  rcases SessionList.mem_insert_slist.mp he with he | rfl
  · exact h.active e he
  · exact hs

theorem claim_setState (h : SessionsBounded ok list) {entry : SessionEntry}
    {connection : Connection} {list' : SessionList}
    (hcl : list.claim entry connection = some list') {state : SessionEntryStateEnum}
    (hs : ok state) : SessionsBounded ok (list'.setState entry.id state) := by
  obtain ⟨e, -, hid, hsl, hq⟩ := SessionList.claim_eq_some hcl
  refine ⟨fun x hx => ?_, ?_⟩
  · obtain ⟨y, hy, rfl⟩ := SessionList.mem_setState_slist.mp hx
    split_ifs with hyid
    · exact hs
    · rw [hsl, List.mem_append, List.mem_singleton] at hy
      rcases hy with hy | rfl
      · exact h.active y hy
      · exact absurd hid hyid
  · simpa [SessionList.setState, SessionList.modify, hq] using
      (List.length_erase_le _ _).trans h.abandoned_le

end SessionsBounded

theorem isLive_savedClient : IsLive .savedClient := by
  simp [IsLive]

theorem isLive_savedRm : IsLive .savedRm := by
  simp [IsLive]

theorem isSaved_of_isLive {s : SessionEntryStateEnum} (hs : IsLive s) (hl : s ≠ .loaded) :
    IsSaved s := by
  cases s
  · exact Or.inl rfl
  · exact Or.inr rfl
  · exact absurd rfl hs
  · exact absurd rfl hl

variable (E : Env) {ok : SessionEntryStateEnum → Prop}

/-! ## Special processing -/

theorem commandSpecialProcessing_bounded {w : World} {command : Tpm2Command}
    (hRm : ok .savedRm) (hClient : ok .savedClient) (h : SessionsBounded ok w.sessionList) :
    SessionsBounded ok (commandSpecialProcessing E w command).2.sessionList := by
  rcases commandSpecialProcessing_cases E w command with
    hr | ⟨-, handle, -, -, hr⟩ | ⟨-, handle, -, -, hr⟩ | ⟨-, -, hr⟩ | ⟨-, hr⟩ <;> rw [hr]
  · exact h
  · exact h
  · exact h.removeHandle handle
  · unfold resourceManagerSaveContextSession
    dsimp only
    split
    · exact h
    · split_ifs
      · exact h
      · exact h.setState _ hClient
  · unfold resourceManagerLoadContextSession
    split
    · exact h
    dsimp only
    split
    · exact h
    rename_i list hcl
    split_ifs at hcl
    · exact h.claim_setState hcl hRm
    · cases hcl
      exact h.setState _ hRm

/-! ## Loading and mapping -/

theorem resourceManagerLoadSessionFromHandle_bounded {w : World} {c : Connection}
    {handle : UInt32} {willFlush : Bool} (h : SessionsBounded IsLive w.sessionList) :
    SessionsBounded IsLive
      (resourceManagerLoadSessionFromHandle E w c handle willFlush).2.sessionList := by
  rcases resourceManagerLoadSessionFromHandle_cases E w c handle willFlush with
    hr | ⟨entry, -, -, -, ⟨rc, -, hr⟩ | ⟨response, -, hr⟩⟩ <;> rw [hr]
  · exact h
  · exact h.remove entry
  · have h' := h.setState entry.id isLive_loaded
    split
    · exact h'.remove entry
    · exact h'

theorem loadContexts_bounded {cs cs' : CommandState} (hr : loadContexts E cs = .ok cs')
    (h : SessionsBounded IsLive cs.world.sessionList) :
    SessionsBounded IsLive cs'.world.sessionList :=
  loadContexts_rec E (fun cs₂ => SessionsBounded IsLive cs₂.world.sessionList)
    (fun acc ih hacc => by
      unfold loadHandlesBody
      dsimp only at hacc ⊢
      split_ifs
      · rw [(resourceManagerLoadTransient_frame E acc.2 ih.2 ih.1).2.1]
        exact hacc
      · exact resourceManagerLoadSessionFromHandle_bounded E hacc
      · exact hacc)
    (fun cs₂ auth hcs => by
      unfold resourceManagerLoadAuthCallback
      split_ifs
      · exact resourceManagerLoadSessionFromHandle_bounded E hcs
      · exact hcs)
    hr h

theorem resourceManagerCreateContextMapping_bounded {w : World} {response : Tpm2Response}
    {L : List UInt32} {r : Tpm2Response × List UInt32 × World}
    (hmap : resourceManagerCreateContextMapping w response L = .ok r)
    (h : SessionsBounded IsLive w.sessionList) : SessionsBounded IsLive r.2.2.sessionList := by
  rcases resourceManagerCreateContextMapping_eq_ok hmap with
    rfl | ⟨-, -, -, -, rfl⟩ | ⟨-, -, -, rfl⟩
  · exact h
  · exact h
  · unfold createContextMappingSession
    split
    · exact h
    · exact h.insert _ _ isLive_loaded

/-! ## The save pass of `send_response` -/

theorem resourceManagerSaveSessionContext_loaded {w : World} {e : SessionEntry} :
    ∀ x ∈ (resourceManagerSaveSessionContext E w e).sessionList.sessionEntrySlist,
      x.state = .loaded →
        x ∈ w.sessionList.sessionEntrySlist ∧ (e.state = .loaded → x.id ≠ e.id) := by
  rcases resourceManagerSaveSessionContext_cases E w e with
    ⟨hs, hr⟩ | ⟨-, ⟨response, -, hr⟩ | ⟨rc, -, hr⟩⟩ <;> rw [hr]
  · exact fun x hx _ => ⟨hx, fun h' => absurd h' hs⟩
  · intro x hx hxs
    obtain ⟨y, hy, rfl⟩ := SessionList.mem_setState_slist.mp hx
    obtain ⟨z, hz, rfl⟩ := SessionList.mem_setContext_slist.mp hy
    by_cases hze : z.id = e.id
    · simp [hze] at hxs
    · simp only [hze, if_false] at hxs ⊢
      exact ⟨hz, fun _ => hze⟩
  · exact fun x hx _ =>
      ⟨(SessionList.mem_remove_slist.mp hx).1, fun _ => (SessionList.mem_remove_slist.mp hx).2⟩

theorem foldl_saveSessionContext_loaded (L : List SessionEntry) (w : World) :
    ∀ x ∈ (L.foldl (resourceManagerSaveSessionContext E) w).sessionList.sessionEntrySlist,
      x.state = .loaded → x ∈ w.sessionList.sessionEntrySlist ∧
        ∀ e ∈ L, e.state = .loaded → x.id ≠ e.id := by
  induction L generalizing w with
  | nil => exact fun x hx _ => ⟨hx, fun _ he => absurd he (List.not_mem_nil _)⟩
  | cons e L ih =>
    intro x hx hxs
    obtain ⟨hx₁, hL⟩ := ih _ x hx hxs
    obtain ⟨hx₀, he⟩ := resourceManagerSaveSessionContext_loaded E x hx₁ hxs
    refine ⟨hx₀, fun e' he' => ?_⟩
    rcases List.mem_cons.mp he' with rfl | he'
    · exact he
    · exact hL e' he'

theorem saveSessionContexts_not_loaded (w : World) :
    ∀ x ∈ (saveSessionContexts E w).sessionList.sessionEntrySlist, x.state ≠ .loaded :=
  fun x hx hxs => (foldl_saveSessionContext_loaded E _ w x hx hxs).2 x
    (foldl_saveSessionContext_loaded E _ w x hx hxs).1 hxs rfl

theorem saveSessionContexts_bounded {w : World} (h : SessionsBounded IsLive w.sessionList) :
    SessionsBounded IsLive (saveSessionContexts E w).sessionList :=
  List.foldlRecOn (motive := fun w' : World => SessionsBounded IsLive w'.sessionList) _ _ _ h
    fun w' hw' e _ => by
      rcases resourceManagerSaveSessionContext_cases E w' e with
        ⟨-, hr⟩ | ⟨-, ⟨response, -, hr⟩ | ⟨rc, -, hr⟩⟩ <;> rw [hr]
      · exact hw'
      · exact (hw'.setContext _ _).setState _ isLive_savedRm
      · exact hw'.remove e

theorem sendResponse_bounded {w : World} {response : Tpm2Response} {L : List UInt32}
    {c : Connection} {attrs : UInt32} (h : SessionsBounded IsLive w.sessionList) :
    SessionsBounded IsSaved (sendResponse E w response L c attrs).sessionList := by
  unfold sendResponse
  rw [(postProcessLoadedTransients_frame E _ L c attrs).1]
  have hb := saveSessionContexts_bounded E (w := w.sinkEnqueue (.response response)) h
  exact ⟨fun e he => isSaved_of_isLive (hb.active e he)
    (saveSessionContexts_not_loaded E _ e he), hb.abandoned_le⟩

/-! ## Commands, connection close and the thread -/

theorem resourceManagerProcessTpm2Command_bounded {w w' : World} {command : Tpm2Command}
    (h : SessionsBounded IsSaved w.sessionList)
    (hr : resourceManagerProcessTpm2Command E w command = .ok w') :
    SessionsBounded IsSaved w'.sessionList := by
  have hl := h.mono fun _ hs => hs.isLive
  have hs := @commandSpecialProcessing_bounded E _ _ command isLive_savedRm
    isLive_savedClient hl
  obtain ⟨w₁, response, L, rfl, -, hcases⟩ := resourceManagerProcessTpm2Command_eq_ok E hr
  refine sendResponse_bounded E ?_
  rcases hcases with ⟨rfl, -⟩ | ⟨rfl, -⟩ | ⟨cs, response₀, hcs, -, hmap⟩
  · exact hl
  · exact hs
  · exact resourceManagerCreateContextMapping_bounded hmap (loadContexts_bounded E hcs hs)

theorem SessionList.abandonHandle_slist_subset (list : SessionList) (connection : Connection)
    (handle : UInt32) :
    (list.abandonHandle connection handle).sessionEntrySlist ⊆ list.sessionEntrySlist := by
  unfold SessionList.abandonHandle
  split
  · exact List.Subset.refl _
  · exact List.erase_subset _ _

theorem connectionCloseSessionCallback_bounded {c : Connection} {w w' : World}
    {e : SessionEntry} (h : SessionsBounded ok w.sessionList)
    (hr : connectionCloseSessionCallback E c w e = .ok w') : SessionsBounded ok w'.sessionList := by
  unfold connectionCloseSessionCallback at hr
  split_ifs at hr
  · cases hr; exact h
  dsimp only at hr
  split at hr
  · cases hr
    rw [foldl_flushSessionCallback_sessionList]
    refine ⟨fun x hx => h.active x (SessionList.abandonHandle_slist_subset _ _ _ hx), ?_⟩
    simp only [World.setSessionList_sessionList, SessionList.pruneAbandoned_queue,
      List.length_drop, SessionList.pruneCount]
    omega
  · cases hr
    exact h.remove e
  · cases hr

theorem resourceManagerProcessControl_bounded {w : World} {msg : ControlMessage}
    {r : Bool × World} (h : SessionsBounded ok w.sessionList)
    (hr : resourceManagerProcessControl E w msg = .ok r) : SessionsBounded ok r.2.sessionList := by
  unfold resourceManagerProcessControl at hr
  split at hr
  · cases hr; exact h
  · rename_i c
    cases hrc : resourceManagerRemoveConnection E w c with
    | error e => simp [hrc, Except.map] at hr
    | ok w₁ =>
      simp only [hrc, Except.map, Except.ok.injEq] at hr
      subst hr
      have h₁ : SessionsBounded ok w₁.sessionList :=
        foldlM_except_rec (fun w' : World => SessionsBounded ok w'.sessionList)
          (fun _ _ _ _ hb hf => connectionCloseSessionCallback_bounded E hb hf) h hrc
      exact h₁
  · cases hr; exact h

/-- A run of the thread from any state whose active sessions are all saved and whose
abandoned FIFO is within `MAX_ABANDONED` keeps both, whatever the messages and the TPM. -/
theorem resourceManagerThread_preserves_bounded {queue : List (Option QueueItem)}
    {w w' : World} (h : SessionsBounded IsSaved w.sessionList)
    (hrun : resourceManagerThread E queue w = .ok w') :
    SessionsBounded IsSaved w'.sessionList :=
  resourceManagerThread_rec E (fun w => SessionsBounded IsSaved w.sessionList)
    (fun _ _ _ h hr => resourceManagerProcessTpm2Command_bounded E h hr)
    (fun _ _ _ h hr => resourceManagerProcessControl_bounded E h hr) h hrun

theorem initial_bounded (maxTransients maxSessions : Nat) :
    SessionsBounded IsSaved (World.initial maxTransients maxSessions).sessionList :=
  ⟨fun _ he => absurd he (List.not_mem_nil _), Nat.zero_le _⟩

/-- At every message boundary of every run, whichever connections send what and in which
order, and whatever the TPM answers, every active session is `SAVED_RM` or `SAVED_CLIENT` and
at most `MAX_ABANDONED` sessions are abandoned. -/
theorem resourceManagerThread_bounded {queue : List (Option QueueItem)}
    {maxTransients maxSessions : Nat} {w : World}
    (hrun : resourceManagerThread E queue (World.initial maxTransients maxSessions) = .ok w) :
    SessionsBounded IsSaved w.sessionList :=
  resourceManagerThread_preserves_bounded E (initial_bounded maxTransients maxSessions) hrun

theorem claimQueue_bounded :
    ∃ w, resourceManagerThread claimEnv claimQueue (World.initial 27 1) = .ok w ∧
      SessionsBounded IsSaved w.sessionList := by
  obtain ⟨w, hrun, -⟩ : ∃ w, resourceManagerThread claimEnv claimQueue
      (World.initial 27 1) = .ok w ∧ True :=
    exists_ok_of_decide (by decide)
  exact ⟨w, hrun, resourceManagerThread_bounded claimEnv hrun⟩

end Tabrmd
