import Mathlib.Logic.Relation
import Tabrmd.Sessions

/-!
# How a command changes the maps

A command changes only its own connection's `HandleMap`: it rewrites an entry, drops one, or
inserts one under the vhandle the counter hands out next.
-/

namespace Tabrmd

/-- The writes a command makes to a map. -/
inductive MapWrite : HandleMap → HandleMap → Prop
  | update (m : HandleMap) (v p : UInt32) (f : TpmsContext → TpmsContext) :
      MapWrite m (m.update v p f)
  | remove (m : HandleMap) (v : UInt32) : MapWrite m (m.remove v)
  | insertNext (m : HandleMap) (phandle : UInt32) (h : m.nextVhandle.1 ≠ 0) :
      MapWrite m (m.nextVhandle.2.insert (handleMapEntryNew phandle m.nextVhandle.1))

/-- The maps of every connection but `c` are as in `w`. -/
def OthersUnchanged (c : Connection) (w w' : World) : Prop :=
  ∀ d, d ≠ c → w'.maps d = w.maps d

/-- From `w` to `w'` only `c`'s map changed, by a sequence of writes. -/
structure MapsStep (c : Connection) (w w' : World) : Prop where
  others : OthersUnchanged c w w'
  writes : Relation.ReflTransGen MapWrite (w.maps c) (w'.maps c)

namespace MapsStep

variable {c : Connection} {w w₁ w₂ : World}

theorem refl (c : Connection) (w : World) : MapsStep c w w :=
  ⟨fun _ _ => rfl, .refl⟩

theorem trans (h₁ : MapsStep c w w₁) (h₂ : MapsStep c w₁ w₂) : MapsStep c w w₂ :=
  ⟨fun d hd => (h₂.others d hd).trans (h₁.others d hd), h₁.writes.trans h₂.writes⟩

theorem of_maps_eq (h : w₁.maps = w.maps) : MapsStep c w w₁ :=
  ⟨fun d _ => congrFun h d, h ▸ .refl⟩

theorem of_connection_eq {c' : Connection} (hc : c' = c) (h : MapsStep c' w w₁) :
    MapsStep c w w₁ :=
  hc ▸ h

theorem setMap {m : HandleMap} (hw : w₁.maps = w.maps) (hm : MapWrite (w.maps c) m) :
    MapsStep c w (w₁.setMap c m) :=
  ⟨fun _ hd => (Function.update_noteq hd _ _).trans (congrFun hw _), by
    rw [World.setMap_maps, Function.update_same]
    exact .single hm⟩

end MapsStep

variable (E : Env)

/-! ## Loading -/

theorem resourceManagerLoadTransient_mapsStep (cs : CommandState) (handle : UInt32) (i : Nat) :
    MapsStep cs.command.connection cs.world
      (resourceManagerLoadTransient E cs handle i).2.world := by
  rcases resourceManagerLoadTransient_cases E cs handle i with
    h | ⟨entry, -, ⟨rc, -, h⟩ | ⟨phandle, -, h⟩⟩ <;> rw [h]
  · exact .refl _ _
  · exact .of_maps_eq rfl
  · exact .setMap rfl (.update _ _ _ _)

theorem loadHandlesBody_mapsStep (acc : UInt32 × CommandState) (ih : Nat × UInt32) :
    MapsStep acc.2.command.connection acc.2.world (loadHandlesBody E acc ih).2.world := by
  unfold loadHandlesBody
  split_ifs
  · exact resourceManagerLoadTransient_mapsStep E _ _ _
  · exact .of_maps_eq (resourceManagerLoadSessionFromHandle_frame E _ _ _ _).1
  · exact .refl _ _

theorem loadContexts_mapsStep {cs cs' : CommandState} (hr : loadContexts E cs = .ok cs') :
    MapsStep cs.command.connection cs.world cs'.world :=
  (loadContexts_rec E (fun cs₂ => cs₂.command.connection = cs.command.connection ∧
      MapsStep cs.command.connection cs.world cs₂.world)
    (fun acc ih hacc => ⟨(loadHandlesBody_frame E acc ih).1.trans hacc.1,
      hacc.2.trans (hacc.1 ▸ loadHandlesBody_mapsStep E acc ih)⟩)
    (fun cs₂ auth hcs => ⟨by rw [(resourceManagerLoadAuthCallback_frame E cs₂ auth).1]; exact hcs.1,
      hcs.2.trans (.of_maps_eq (resourceManagerLoadAuthCallback_frame E cs₂ auth).2.2.1)⟩)
    hr ⟨rfl, .refl _ _⟩).2

/-! ## Saving -/

theorem resourceManagerFlushsaveContext_mapsStep (w : World) (c : Connection) (v : UInt32) :
    MapsStep c w (resourceManagerFlushsaveContext E w c v) := by
  rcases resourceManagerFlushsaveContext_cases E w c v with
    ⟨h, -⟩ | ⟨entry, -, -, ⟨rc, -, h⟩ | ⟨ctx, -, h⟩⟩ <;> rw [h]
  · exact .refl _ _
  · exact .of_maps_eq rfl
  · exact .setMap rfl (.update _ _ _ _)

theorem removeEntryFromHandleMap_mapsStep (w : World) (c : Connection) (v : UInt32) :
    MapsStep c w (removeEntryFromHandleMap w c v) := by
  unfold removeEntryFromHandleMap
  split_ifs
  · exact .setMap rfl (.remove _ _)
  · exact .refl _ _

theorem postProcessLoadedTransients_mapsStep (w : World) (L : List UInt32) (c : Connection)
    (attrs : UInt32) : MapsStep c w (postProcessLoadedTransients E w L c attrs) := by
  induction L generalizing w with
  | nil => simpa using MapsStep.refl c w
  | cons v L ih =>
    rw [postProcessLoadedTransients_cons]
    split_ifs
    · exact (resourceManagerFlushsaveContext_mapsStep E w c v).trans (ih _)
    · exact (removeEntryFromHandleMap_mapsStep w c v).trans (ih _)

theorem sendResponse_mapsStep (w : World) (response : Tpm2Response) (L : List UInt32)
    (c : Connection) (attrs : UInt32) :
    MapsStep c w (sendResponse E w response L c attrs) :=
  (MapsStep.of_maps_eq (saveSessionContexts_frame E _).1 :
    MapsStep c w (saveSessionContexts E (w.sinkEnqueue (.response response)))).trans
    (postProcessLoadedTransients_mapsStep E _ L c attrs)

/-! ## One command -/

theorem commandSpecialProcessing_mapsStep (w : World) (command : Tpm2Command) :
    MapsStep command.connection w (commandSpecialProcessing E w command).2 := by
  rcases commandSpecialProcessing_world E w command with ⟨l, h⟩ | ⟨handle, h⟩ <;> rw [h]
  · exact .of_maps_eq rfl
  · exact .setMap rfl (.remove _ _)

theorem resourceManagerCreateContextMapping_mapsStep {w : World} {response : Tpm2Response}
    {L : List UInt32} {r : Tpm2Response × List UInt32 × World}
    (hmap : resourceManagerCreateContextMapping w response L = .ok r) :
    MapsStep response.connection w r.2.2 := by
  rcases resourceManagerCreateContextMapping_eq_ok hmap with
    rfl | ⟨-, -, -, hz, rfl⟩ | ⟨-, -, -, rfl⟩
  · exact .refl _ _
  · exact .setMap rfl (.insertNext _ _ hz)
  · exact .of_maps_eq (createContextMappingSession_maps _ _ _)

/-- A command, on every path and whatever the TPM answers, changes only its own connection's
map, by writes of the three kinds. -/
theorem resourceManagerProcessTpm2Command_mapsStep {w w' : World} {command : Tpm2Command}
    (hr : resourceManagerProcessTpm2Command E w command = .ok w') :
    MapsStep command.connection w w' := by
  have hs := commandSpecialProcessing_mapsStep E w command
  obtain ⟨w₁, response, L, rfl, -, hcases⟩ := resourceManagerProcessTpm2Command_eq_ok E hr
  refine MapsStep.trans ?_ (sendResponse_mapsStep E _ _ _ _ _)
  rcases hcases with ⟨rfl, -⟩ | ⟨rfl, -⟩ | ⟨cs, response₀, hcs, hc, hmap⟩
  · exact .refl _ _
  · exact hs
  · have hsend : MapsStep command.connection cs.world
        (cs.world.accessBrokerSendCommand E cs.command).2 := .of_maps_eq rfl
    exact hs.trans ((loadContexts_mapsStep E hcs).trans
      (hsend.trans ((resourceManagerCreateContextMapping_mapsStep hmap).of_connection_eq hc)))

/-- A command, on every path and whatever the TPM answers, leaves the `HandleMap` of every
other connection as it was. -/
theorem resourceManagerProcessTpm2Command_others {w w' : World} {command : Tpm2Command}
    (hr : resourceManagerProcessTpm2Command E w command = .ok w') :
    OthersUnchanged command.connection w w' :=
  (resourceManagerProcessTpm2Command_mapsStep E hr).others

theorem startAuthSession_leaves_other_maps :
    ∃ w', resourceManagerProcessTpm2Command claimEnv (World.initial 27 1)
        (startAuthSession ⟨1⟩) = .ok w' ∧
      OthersUnchanged (startAuthSession ⟨1⟩).connection (World.initial 27 1) w' := by
  obtain ⟨w', hr, -⟩ : ∃ w', resourceManagerProcessTpm2Command claimEnv (World.initial 27 1)
      (startAuthSession ⟨1⟩) = .ok w' ∧ True :=
    exists_ok_of_decide (by decide)
  exact ⟨w', hr, resourceManagerProcessTpm2Command_others claimEnv hr⟩

end Tabrmd

/-!
## How a command changes other connections' sessions

Apart from `FlushContext`, which drops the session it names whoever owns it, a command changes
only its own connection's active sessions.
-/

namespace Tabrmd

/-- The active sessions owned by connections other than `c`, in list order. -/
def othersSessions (c : Connection) (list : SessionList) : List SessionEntry :=
  list.sessionEntrySlist.filter (·.connection != c)

section OthersSessions

variable {c : Connection} {list : SessionList}

theorem mem_othersSessions {x : SessionEntry} :
    x ∈ othersSessions c list ↔ x ∈ list.sessionEntrySlist ∧ x.connection ≠ c := by
  simp [othersSessions]

theorem othersSessions_id_ne {x : SessionEntry}
    (hx : x ∈ list.sessionEntrySlist ++ list.abandonedQueue) (hc : x.connection = c) :
    ∀ y ∈ othersSessions c list, y.id ≠ x.id := fun _ hy hid =>
  (mem_othersSessions.mp hy).2 (SessionList.eq_of_id_eq
    (List.mem_append_left _ (mem_othersSessions.mp hy).1) hx hid ▸ hc)

theorem othersSessions_modify {id : Nat} {f : SessionEntry → SessionEntry} {hf}
    (hfc : ∀ e, (f e).connection = e.connection) (hid : ∀ y ∈ othersSessions c list, y.id ≠ id) :
    othersSessions c (list.modify id f hf) = othersSessions c list := by
  unfold othersSessions SessionList.modify
  rw [List.filter_map]
  have hp : list.sessionEntrySlist.filter
      ((·.connection != c) ∘ fun e => if e.id = id then f e else e) =
        list.sessionEntrySlist.filter (·.connection != c) :=
    List.filter_congr fun y _ => by by_cases hy : y.id = id <;> simp [hy, hfc]
  rw [hp]
  refine (List.map_congr_left fun y hy => ?_).trans (List.map_id _)
  simp [hid y hy]

theorem othersSessions_setState {id : Nat} (state : SessionEntryStateEnum)
    (hid : ∀ y ∈ othersSessions c list, y.id ≠ id) :
    othersSessions c (list.setState id state) = othersSessions c list :=
  othersSessions_modify (fun _ => rfl) hid

theorem othersSessions_setContext {id : Nat} (context : List UInt8)
    (hid : ∀ y ∈ othersSessions c list, y.id ≠ id) :
    othersSessions c (list.setContext id context) = othersSessions c list :=
  othersSessions_modify (fun _ => rfl) hid

theorem othersSessions_remove {entry : SessionEntry}
    (hid : ∀ y ∈ othersSessions c list, y.id ≠ entry.id) :
    othersSessions c (list.remove entry) = othersSessions c list := by
  unfold othersSessions SessionList.remove
  rw [List.filter_filter]
  refine List.filter_congr fun y hy => ?_
  by_cases hyc : y.connection = c
  · simp [hyc]
  · simp [hyc, hid y (mem_othersSessions.mpr ⟨hy, hyc⟩)]

theorem othersSessions_insert (handle : UInt32) (state : SessionEntryStateEnum) :
    othersSessions c (list.insert c handle state) = othersSessions c list := by
  simp [othersSessions, SessionList.insert]

theorem othersSessions_of_claim {entry : SessionEntry} {list' : SessionList}
    (h : list.claim entry c = some list') : othersSessions c list' = othersSessions c list := by
  obtain ⟨e, -, -, hs, -⟩ := SessionList.claim_eq_some h
  simp [othersSessions, hs]

end OthersSessions

variable (E : Env)

/-! ## The steps of a command -/

theorem resourceManagerLoadSessionFromHandle_othersSessions (w : World) (c : Connection)
    (handle : UInt32) (willFlush : Bool) :
    othersSessions c (resourceManagerLoadSessionFromHandle E w c handle willFlush).2.sessionList =
      othersSessions c w.sessionList := by
  rcases resourceManagerLoadSessionFromHandle_cases E w c handle willFlush with
    hr | ⟨entry, hl, hc, -, ⟨rc, -, hr⟩ | ⟨response, -, hr⟩⟩ <;>
    simp only [hr, World.setSessionList_sessionList]
  all_goals
    have hid := othersSessions_id_ne
      (List.mem_append_left _ (SessionList.lookupHandle_eq_some hl).1) hc
  · exact othersSessions_remove hid
  · split
    · rw [othersSessions_remove (by rwa [othersSessions_setState .loaded hid]),
        othersSessions_setState _ hid]
    · exact othersSessions_setState _ hid

theorem loadHandlesBody_othersSessions (acc : UInt32 × CommandState) (ih : Nat × UInt32) :
    othersSessions acc.2.command.connection (loadHandlesBody E acc ih).2.world.sessionList =
      othersSessions acc.2.command.connection acc.2.world.sessionList := by
  unfold loadHandlesBody
  split_ifs
  · rw [(resourceManagerLoadTransient_frame E acc.2 ih.2 ih.1).2.1]
  · exact resourceManagerLoadSessionFromHandle_othersSessions E _ _ _ _
  · rfl

theorem resourceManagerLoadAuthCallback_othersSessions (cs : CommandState)
    (auth : TpmsAuthCommand) :
    othersSessions cs.command.connection
        (resourceManagerLoadAuthCallback E cs auth).world.sessionList =
      othersSessions cs.command.connection cs.world.sessionList := by
  unfold resourceManagerLoadAuthCallback
  split_ifs
  · exact resourceManagerLoadSessionFromHandle_othersSessions E _ _ _ _
  · rfl

theorem loadContexts_othersSessions {cs cs' : CommandState} (hr : loadContexts E cs = .ok cs') :
    othersSessions cs.command.connection cs'.world.sessionList =
      othersSessions cs.command.connection cs.world.sessionList :=
  (loadContexts_rec E (fun cs₂ => cs₂.command.connection = cs.command.connection ∧
      othersSessions cs.command.connection cs₂.world.sessionList =
        othersSessions cs.command.connection cs.world.sessionList)
    (fun acc ih hacc => ⟨(loadHandlesBody_frame E acc ih).1.trans hacc.1,
      (hacc.1 ▸ loadHandlesBody_othersSessions E acc ih).trans hacc.2⟩)
    (fun cs₂ auth ⟨hc, heq⟩ => by
      have hcb := resourceManagerLoadAuthCallback_othersSessions E cs₂ auth
      rw [hc] at hcb
      exact ⟨by rw [(resourceManagerLoadAuthCallback_frame E cs₂ auth).1]; exact hc, hcb.trans heq⟩)
    hr ⟨rfl, rfl⟩).2

theorem resourceManagerSaveContextSession_othersSessions (w : World) (command : Tpm2Command) :
    othersSessions command.connection
        (resourceManagerSaveContextSession w command).2.sessionList =
      othersSessions command.connection w.sessionList := by
  unfold resourceManagerSaveContextSession
  dsimp only
  rcases hl : w.sessionList.lookupHandle (command.getHandle 0) with _ | entry
  · rfl
  dsimp only
  split_ifs with hc
  · rfl
  · exact othersSessions_setState _ (othersSessions_id_ne
      (List.mem_append_left _ (SessionList.lookupHandle_eq_some hl).1) (not_not.mp hc).symm)

theorem resourceManagerLoadContextSession_othersSessions (w : World) (command : Tpm2Command) :
    othersSessions command.connection
        (resourceManagerLoadContextSession w command).2.sessionList =
      othersSessions command.connection w.sessionList := by
  unfold resourceManagerLoadContextSession
  rcases hl : w.sessionList.lookupContextClient command.body with _ | entry
  · rfl
  obtain ⟨hmem, -⟩ := SessionList.lookupContextClient_eq_some hl
  dsimp only
  by_cases hconn : command.connection ≠ entry.connection
  · rw [if_pos hconn]
    cases hcl : w.sessionList.claim entry command.connection with
    | none => rfl
    | some list =>
      obtain ⟨e, he, hid, -, -⟩ := SessionList.claim_eq_some hcl
      have hid' : ∀ y ∈ othersSessions command.connection list, y.id ≠ entry.id := by
        rw [othersSessions_of_claim hcl]
        exact fun y hy hye => SessionList.id_not_mem_abandoned (mem_othersSessions.mp hy).1 e he
          (hid.trans hye.symm)
      exact (othersSessions_setState _ hid').trans (othersSessions_of_claim hcl)
  · rw [if_neg hconn]
    exact othersSessions_setState _ (othersSessions_id_ne hmem (not_not.mp hconn).symm)

theorem commandSpecialProcessing_othersSessions (w : World) {command : Tpm2Command}
    (hcode : command.code ≠ tpm2CcFlushContext) :
    othersSessions command.connection (commandSpecialProcessing E w command).2.sessionList =
      othersSessions command.connection w.sessionList := by
  rcases commandSpecialProcessing_cases E w command with
    hr | ⟨-, handle, -, -, hr⟩ | ⟨hf, -⟩ | ⟨-, -, hr⟩ | ⟨-, hr⟩
  · rw [hr]
  · simp only [hr, World.setMap_sessionList]
  · exact absurd hf hcode
  · rw [hr]
    exact resourceManagerSaveContextSession_othersSessions w command
  · rw [hr]
    exact resourceManagerLoadContextSession_othersSessions w command

theorem resourceManagerCreateContextMapping_othersSessions {w : World}
    {response : Tpm2Response} {L : List UInt32} {r : Tpm2Response × List UInt32 × World}
    (hmap : resourceManagerCreateContextMapping w response L = .ok r) :
    othersSessions response.connection r.2.2.sessionList =
      othersSessions response.connection w.sessionList := by
  rcases resourceManagerCreateContextMapping_eq_ok hmap with
    rfl | ⟨-, -, -, -, rfl⟩ | ⟨handle, -, -, rfl⟩
  · rfl
  · rfl
  · unfold createContextMappingSession
    split
    · rfl
    · exact othersSessions_insert _ _

/-! ## The save pass and the whole command -/

theorem resourceManagerSaveSessionContext_othersSessions (w : World) {c : Connection}
    {e : SessionEntry}
    (h : e.state = .loaded → ∀ y ∈ othersSessions c w.sessionList, y.id ≠ e.id) :
    othersSessions c (resourceManagerSaveSessionContext E w e).sessionList =
      othersSessions c w.sessionList := by
  rcases resourceManagerSaveSessionContext_cases E w e with
    ⟨-, hr⟩ | ⟨hs, ⟨response, -, hr⟩ | ⟨rc, -, hr⟩⟩ <;>
    simp only [hr, World.setSessionList_sessionList]
  · rw [othersSessions_setState .savedRm
      (by rw [othersSessions_setContext response.body (h hs)]; exact h hs),
      othersSessions_setContext _ (h hs)]
  · exact othersSessions_remove (h hs)

theorem foldl_saveSessionContext_othersSessions {c : Connection} (L : List SessionEntry)
    {w : World}
    (h : ∀ e ∈ L, e.state = .loaded → ∀ y ∈ othersSessions c w.sessionList, y.id ≠ e.id) :
    othersSessions c (L.foldl (resourceManagerSaveSessionContext E) w).sessionList =
      othersSessions c w.sessionList := by
  induction L generalizing w with
  | nil => rfl
  | cons e L ih =>
    have hstep :=
      resourceManagerSaveSessionContext_othersSessions E w (h e (List.mem_cons_self _ _))
    rw [List.foldl_cons, ih fun e' he' => hstep ▸ h e' (List.mem_cons_of_mem _ he'), hstep]

theorem saveSessionContexts_othersSessions (w : World) {c : Connection}
    (h : ∀ e ∈ othersSessions c w.sessionList, e.state ≠ .loaded) :
    othersSessions c (saveSessionContexts E w).sessionList = othersSessions c w.sessionList :=
  foldl_saveSessionContext_othersSessions E _ fun e he hs => by
    by_cases hc : e.connection = c
    · exact othersSessions_id_ne (List.mem_append_left _ he) hc
    · exact absurd hs (h e (mem_othersSessions.mpr ⟨he, hc⟩))

theorem sendResponse_othersSessions (w : World) (response : Tpm2Response) (L : List UInt32)
    (c' : Connection) (attrs : UInt32) {c : Connection}
    (h : ∀ e ∈ othersSessions c w.sessionList, e.state ≠ .loaded) :
    othersSessions c (sendResponse E w response L c' attrs).sessionList =
      othersSessions c w.sessionList := by
  unfold sendResponse
  rw [(postProcessLoadedTransients_frame E _ L c' attrs).1]
  exact saveSessionContexts_othersSessions E _ h

/-- From a state where every active session is saved, a command other than `FlushContext`
leaves the active sessions of every other connection as they were, in order. -/
theorem resourceManagerProcessTpm2Command_othersSessions_of_owned {removed : List Connection}
    {w w' : World} {command : Tpm2Command}
    (h : SessionsOwned SessionEntryStateEnum.IsSaved removed w.sessionList)
    (hcode : command.code ≠ tpm2CcFlushContext)
    (hr : resourceManagerProcessTpm2Command E w command = .ok w') :
    othersSessions command.connection w'.sessionList =
      othersSessions command.connection w.sessionList := by
  obtain ⟨w₁, response, L, rfl, -, hcases⟩ := resourceManagerProcessTpm2Command_eq_ok E hr
  have hs := commandSpecialProcessing_othersSessions E w hcode
  have h₁ : othersSessions command.connection w₁.sessionList =
      othersSessions command.connection w.sessionList := by
    rcases hcases with ⟨rfl, -⟩ | ⟨rfl, -⟩ | ⟨cs, response₀, hcs, hc, hmap⟩
    · rfl
    · exact hs
    · have hmap' := resourceManagerCreateContextMapping_othersSessions hmap
      rw [hc] at hmap'
      exact hmap'.trans ((loadContexts_othersSessions E hcs).trans hs)
  rw [sendResponse_othersSessions E _ _ _ _ _ fun e he => ?_, h₁]
  rw [h₁] at he
  obtain hst | hst : e.state = .savedRm ∨ e.state = .savedClient :=
    (h.active e (mem_othersSessions.mp he).1).1
  all_goals simp [hst]

/-- In every state a run reaches, a command other than `FlushContext`, whatever the TPM
answers, leaves the active sessions of every other connection as they were, in order. -/
theorem resourceManagerProcessTpm2Command_keeps_othersSessions
    {queue : List (Option QueueItem)} {maxTransients maxSessions : Nat} {w w' : World}
    {command : Tpm2Command} (hlive : commandsFromLive [] queue = true)
    (hrun : resourceManagerThread E queue (World.initial maxTransients maxSessions) = .ok w)
    (hcode : command.code ≠ tpm2CcFlushContext)
    (hr : resourceManagerProcessTpm2Command E w command = .ok w') :
    othersSessions command.connection w'.sessionList =
      othersSessions command.connection w.sessionList :=
  resourceManagerProcessTpm2Command_othersSessions_of_owned E
    (resourceManagerThread_owned E (initial_owned maxTransients maxSessions) hlive hrun) hcode hr

def saveQueue : List (Option QueueItem) :=
  [some (.command (startAuthSession ⟨1⟩)), some (.command (contextSave ⟨1⟩ 0x03000000))]

/-- Connection 2 presents the context of connection 1's session, which connection 1 still
owns: the session stays as it was. -/
theorem saveQueue_keeps_othersSessions :
    commandsFromLive [] saveQueue = true ∧
      (contextLoad ⟨2⟩ sessionContext).code ≠ tpm2CcFlushContext ∧
      ∃ w w', resourceManagerThread claimEnv saveQueue (World.initial 27 3) = .ok w ∧
        resourceManagerProcessTpm2Command claimEnv w (contextLoad ⟨2⟩ sessionContext) = .ok w' ∧
        othersSessions ⟨2⟩ w'.sessionList = othersSessions ⟨2⟩ w.sessionList :=
  ⟨by decide, by decide, _, _, rfl, rfl,
    @resourceManagerProcessTpm2Command_keeps_othersSessions claimEnv saveQueue 27 3 _ _
      (contextLoad ⟨2⟩ sessionContext) (by decide) rfl (by decide) rfl⟩

/-! ## A session flushed by another connection

Connection 1 starts a session; connection 2 sends `FlushContext` naming it.
`resource_manager_flush_context` drops the session from the list without looking at its
owner, and the command goes on to the TPM.  When connection 1 later loads the context that
its `ContextSave` returned, no session matches, so the `ContextLoad` is forwarded to the TPM
instead of being answered by the RM. -/

/-- An AccessBroker whose TPM starts session `0x03000000`, saves it into `sessionContext`, and
completes every later command. -/
def flushEnv : Env where
  sendCommand := fun log _ =>
    if log.length = 0 then .ok ⟨0, some 0x03000000, [], fun _ => rfl⟩
    else .ok ⟨0, none, [], by simp⟩
  sendContextLoad := fun _ _ => .error 1
  sendContextSave := fun _ _ => .ok ⟨0, none, sessionContext, by simp⟩
  contextLoad := fun _ _ => .error 1
  contextSaveflush := fun _ _ => .error 1
  contextFlush := fun _ _ => 0
  stackSavedHandle := fun _ _ => 0

def flushContext (c : Connection) (handle : UInt32) : Tpm2Command :=
  ⟨c, tpm2CcFlushContext, 0, [], [], be32 handle⟩

theorem getFlushHandle_flushContext (c : Connection) (v : UInt32) :
    (flushContext c v).getFlushHandle = .ok v := by
  simp [Tpm2Command.getFlushHandle, flushContext, Tpm2Command.body, Tpm2Command.authArea, readBe,
    List.take_of_length_le]

/-- Connection 2's `FlushContext` drops connection 1's session and reaches the TPM. -/
theorem flushContext_drops_other_connections_session :
    ∃ w w', resourceManagerThread flushEnv [some (.command (startAuthSession ⟨1⟩))]
        (World.initial 27 3) = .ok w ∧
      resourceManagerProcessTpm2Command flushEnv w (flushContext ⟨2⟩ 0x03000000) = .ok w' ∧
      w.sessionList.sessionEntrySlist.map (fun e => (e.connection, e.handle, e.state)) =
        [(⟨1⟩, 0x03000000, .savedRm)] ∧
      w'.sessionList.sessionEntrySlist = [] ∧
      w'.log.filterMap BrokerEvent.sentCode = [tpm2CcStartAuthSession, tpm2CcFlushContext] := by
  refine ⟨_, _, rfl, rfl, ?_, ?_, ?_⟩ <;> decide

/-- The parameters of a response the RM passes to its sink. -/
def SinkItem.responseParameters : SinkItem → Option (List UInt8)
  | .response r => some r.parameters
  | .control _ => none

def roundTripQueue : List (Option QueueItem) :=
  [some (.command (startAuthSession ⟨1⟩)), some (.command (contextSave ⟨1⟩ 0x03000000)),
    some (.command (flushContext ⟨2⟩ 0x03000000)),
    some (.command (contextLoad ⟨1⟩ sessionContext))]

/-- Connection 1's `ContextSave` returns `sessionContext`; after connection 2's `FlushContext`,
loading it again reaches the TPM and the session is tracked no more. -/
theorem roundTripQueue_context_load_reaches_tpm :
    ∃ w, resourceManagerThread flushEnv roundTripQueue (World.initial 27 3) = .ok w ∧
      (w.sink.filterMap SinkItem.responseParameters)[1]? = some sessionContext ∧
      w.log.filterMap BrokerEvent.sentCode =
        [tpm2CcStartAuthSession, tpm2CcFlushContext, tpm2CcContextLoad] ∧
      w.sessionList.sessionEntrySlist = [] :=
  exists_ok_of_decide (by decide)

end Tabrmd

/-!
## `ContextLoad` bodies the resource manager does not answer

A body that fails to unmarshal, or that matches no session the caller can claim, is not
answered by `resource_manager_load_context`, and the command goes on to the TPM.
-/

namespace Tabrmd

variable (E : Env)

/-- Whatever the body and whatever the uninitialised `savedHandle` holds, a `ContextLoad` whose
body matches no tracked session, or matches one of another connection that cannot be claimed,
gets no answer from `resource_manager_load_context`, which changes nothing. -/
theorem resourceManagerLoadContext_unanswered (w : World) {command : Tpm2Command}
    (h : w.sessionList.lookupContextClient command.body = none ∨
      ∃ entry, w.sessionList.lookupContextClient command.body = some entry ∧
        command.connection ≠ entry.connection ∧
        w.sessionList.claim entry command.connection = none) :
    resourceManagerLoadContext E w command = (none, w) := by
  unfold resourceManagerLoadContext
  dsimp only
  split_ifs
  · unfold resourceManagerLoadContextSession
    rcases h with h | ⟨entry, h, hc, hcl⟩
    · rw [h]
    · simp only [h, if_pos hc, hcl]
  · rfl

/-- The path of `resource_manager_process_tpm2_command` that special processing lets through,
for a command with no handle and no authorisation area: it goes to the TPM as it came, and
the response is mapped and sent. -/
def sendUnanswered (w : World) (command : Tpm2Command) : Except String World :=
  let sent := w.accessBrokerSendCommand E command
  let response : Tpm2Response :=
    match sent.1 with
    | .ok tpm => ⟨tpm, command.connection⟩
    | .error rc => tpm2ResponseNewRc command.connection rc
  (resourceManagerCreateContextMapping sent.2 response []).map fun mapped =>
    sendResponse E mapped.2.2 mapped.1 mapped.2.1 command.connection command.attributes

/-- A `ContextLoad` with no handle and no authorisation area whose body matches no tracked
session, or one of another connection that cannot be claimed, goes to the TPM as it came. -/
theorem resourceManagerProcessTpm2Command_contextLoad_unanswered {w : World}
    {command : Tpm2Command} (hcode : command.code = tpm2CcContextLoad)
    (hh : command.handles = []) (ha : command.auths = [])
    (h : w.sessionList.lookupContextClient command.body = none ∨
      ∃ entry, w.sessionList.lookupContextClient command.body = some entry ∧
        command.connection ≠ entry.connection ∧
        w.sessionList.claim entry command.connection = none) :
    resourceManagerProcessTpm2Command E w command = sendUnanswered E w command := by
  have hf : command.code ≠ tpm2CcFlushContext := by rw [hcode]; decide
  have hs : command.code ≠ tpm2CcContextSave := by rw [hcode]; decide
  have hsp : commandSpecialProcessing E w command = (none, w) := by
    rw [commandSpecialProcessing, if_neg hf, if_neg hs, if_pos hcode,
      resourceManagerLoadContext_unanswered E w h]
  unfold resourceManagerProcessTpm2Command
  simp only [resourceManagerQuotaCheck_of_code hcode (by decide), ne_eq, not_true_eq_false,
    if_false, hsp, loadContexts, hh, ha, List.length_nil, Nat.lt_irrefl, if_false,
    Except.map, ne_eq, not_true_eq_false]
  unfold sendUnanswered
  rcases World.accessBrokerSendCommand E w command with ⟨tpm | rc, w'⟩ <;> dsimp only <;>
    split <;> simp_all [Except.map]

/-- An AccessBroker whose TPM rejects every command with `TPM2_RC_INSUFFICIENT`. -/
def rejectEnv : Env where
  sendCommand := fun _ _ => .ok ⟨0x09A, none, [], by simp⟩
  sendContextLoad := fun _ _ => .error 1
  sendContextSave := fun _ _ => .error 1
  contextLoad := fun _ _ => .error 1
  contextSaveflush := fun _ _ => .error 1
  contextFlush := fun _ _ => 0
  stackSavedHandle := fun _ _ => 0

/-- An empty `ContextLoad` body does not unmarshal, yet the command goes to the TPM; and after
connection 1 saves its session, connection 2's `ContextLoad` of that context, which it cannot
claim, goes to the TPM too, while connection 1 still holds the session. -/
theorem contextLoad_reaches_tpm :
    tss2MuTpmsContextUnmarshal [] = .error tss2MuRcInsufficientBuffer ∧
    (∃ w, resourceManagerThread rejectEnv [some (.command (contextLoad ⟨1⟩ []))]
        (World.initial 27 3) = .ok w ∧
      w.log.filterMap BrokerEvent.sentCode = [tpm2CcContextLoad]) ∧
    ∃ w, resourceManagerThread claimEnv
        (saveQueue ++ [some (.command (contextLoad ⟨2⟩ sessionContext))]) (World.initial 27 3) =
          .ok w ∧
      w.log.filterMap BrokerEvent.sentCode = [tpm2CcStartAuthSession, tpm2CcContextLoad] ∧
      (w.sessionList.sessionEntrySlist.map fun e => (e.connection, e.handle, e.state)).head? =
        some (⟨1⟩, 0x03000000, .savedClient) := by
  refine ⟨rfl, ?_, ?_⟩
  · obtain ⟨w, hs, hsent⟩ : ∃ w, sendUnanswered rejectEnv (World.initial 27 3)
        (contextLoad ⟨1⟩ []) = .ok w ∧
          w.log.filterMap BrokerEvent.sentCode = [tpm2CcContextLoad] :=
      exists_ok_of_decide (by decide)
    refine ⟨w, ?_, hsent⟩
    rw [resourceManagerThread, @resourceManagerProcessTpm2Command_contextLoad_unanswered
      rejectEnv (World.initial 27 3) (contextLoad ⟨1⟩ []) rfl rfl rfl (.inl rfl), hs]
    rfl
  · obtain ⟨w, hw, hl, hclaim, hsent⟩ : ∃ w, resourceManagerThread claimEnv saveQueue
        (World.initial 27 3) = .ok w ∧ (w.sessionList.lookupContextClient sessionContext =
          some ⟨0, ⟨1⟩, sessionContext, 0x03000000, .savedClient⟩ ∧
        (w.sessionList.claim ⟨0, ⟨1⟩, sessionContext, 0x03000000, .savedClient⟩
          ⟨2⟩).isNone ∧
        (match sendUnanswered claimEnv w (contextLoad ⟨2⟩ sessionContext) with
          | .ok w' => decide (w'.log.filterMap BrokerEvent.sentCode =
              [tpm2CcStartAuthSession, tpm2CcContextLoad] ∧
            (w'.sessionList.sessionEntrySlist.map fun e =>
              (e.connection, e.handle, e.state)).head? = some (⟨1⟩, 0x03000000, .savedClient))
          | .error _ => false) = true) :=
      exists_ok_of_decide (by decide)
    rcases hs : sendUnanswered claimEnv w (contextLoad ⟨2⟩ sessionContext) with e | w'
    · rw [hs] at hsent
      cases hsent
    rw [hs] at hsent
    refine ⟨w', ?_, of_decide_eq_true hsent⟩
    rw [resourceManagerThread_append claimEnv _ (by simp [saveQueue]) hw, resourceManagerThread,
      @resourceManagerProcessTpm2Command_contextLoad_unanswered claimEnv w
        (contextLoad ⟨2⟩ sessionContext) rfl rfl rfl
        (.inr ⟨_, hl, by decide, Option.isNone_iff_eq_none.mp hclaim⟩), hs]
    rfl

end Tabrmd
