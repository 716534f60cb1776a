import Tabrmd.ResourceManager

/-!
# What `GetCapability (TPM2_CAP_HANDLES)` answers

`get_cap_handles` collects the first `min count n` of the `n` vhandles at or above `prop`,
ascending, into the `TPM2_MAX_CAP_HANDLES` slots of a `TPMS_CAPABILITY_DATA`.
`build_cap_handles_response` writes its fields at the offsets of the source's macros; the
stores tile the buffer, which the TPM wire format reads back.
-/

namespace Tabrmd

/-! ## Sorting and collecting the vhandles -/

theorem lt_iff_toNat_lt {a b : UInt32} : a < b ↔ a.toNat < b.toNat := by
  rw [UInt32.lt_def, BitVec.lt_def]; rfl

theorem le_iff_toNat_le {a b : UInt32} : a ≤ b ↔ a.toNat ≤ b.toNat := by
  rw [UInt32.le_def, BitVec.le_def]; rfl

theorem eq_iff_toNat_eq {a b : UInt32} : a = b ↔ a.toNat = b.toNat :=
  ⟨congrArg _, fun h => UInt32.eq_of_val_eq (Fin.ext h)⟩

/-- `handle_compare` is the unsigned order: negative, zero or positive as `a` is below, equal
to or above `b`. -/
theorem handleCompare_spec (a b : UInt32) :
    (handleCompare a b < 0 ↔ a < b) ∧ (handleCompare a b = 0 ↔ a = b) ∧
      (0 < handleCompare a b ↔ b < a) := by
  simp only [handleCompare, gt_iff_lt, lt_iff_toNat_lt, eq_iff_toNat_eq]
  split_ifs <;> simp <;> omega

theorem handleCompare_nonpos (a b : UInt32) : handleCompare a b ≤ 0 ↔ a ≤ b := by
  simp only [handleCompare, gt_iff_lt, lt_iff_toNat_lt, le_iff_toNat_le]
  split_ifs <;> omega

theorem pairwise_mergeSort_handleCompare {l : List UInt32} (hl : l.Nodup) :
    (l.mergeSort fun a b => handleCompare a b ≤ 0).Pairwise (· < ·) := by
  have hsorted := @List.sorted_mergeSort UInt32 (fun a b => decide (handleCompare a b ≤ 0))
    (fun a b c hab hbc => by
      simp only [decide_eq_true_eq, handleCompare_nonpos, le_iff_toNat_le] at hab hbc ⊢
      omega)
    (fun a b => by
      simp only [Bool.or_eq_true, decide_eq_true_eq, handleCompare_nonpos, le_iff_toNat_le]
      omega) l
  refine (hsorted.and ((List.mergeSort_perm l _).nodup_iff.mpr hl)).imp fun {a b} h => ?_
  simp only [decide_eq_true_eq, handleCompare_nonpos, le_iff_toNat_le, ne_eq,
    eq_iff_toNat_eq] at h
  rw [lt_iff_toNat_lt]
  omega

theorem List.take_set_succ {α : Type} (l : List α) (n : Nat) (v : α) (h : n < l.length) :
    (l.set n v).take (n + 1) = l.take n ++ [v] := by
  induction l generalizing n with
  | nil => exact absurd h (Nat.not_lt_zero _)
  | cons x l ih =>
    cases n with
    | zero => rfl
    | succ n => simp [ih n (by simpa using h)]

theorem List.take_append_take_self {α : Type} (l m : List α) (n : Nat) :
    (l.take n ++ m).take n = (l ++ m).take n := by
  rw [List.take_append_eq_append_take, List.take_append_eq_append_take, List.take_take,
    Nat.min_self, List.length_take]
  congr 2
  omega

namespace TpmsCapabilityData

@[simp] theorem empty_count : empty.count = 0 := rfl

@[simp] theorem empty_handles : empty.handles = [] := rfl

theorem handles_length (capData : TpmsCapabilityData) :
    capData.handles.length = min capData.count tpm2MaxCapHandles := by
  rw [handles, List.length_take, capData.handle_length]

theorem take_handles (capData : TpmsCapabilityData) :
    capData.handles.take tpm2MaxCapHandles = capData.handles :=
  List.take_of_length_le (by rw [handles_length]; omega)

/-- A store appends the vhandle to the handles the data lists, as far as the array reaches. -/
theorem store_handles (capData : TpmsCapabilityData) (vhandle : UInt32) :
    (capData.store vhandle).handles = (capData.handles ++ [vhandle]).take tpm2MaxCapHandles := by
  have hlen := capData.handle_length
  simp only [handles, store]
  by_cases h : capData.count < tpm2MaxCapHandles
  · rw [List.take_set_succ _ _ _ (by omega)]
    refine (List.take_of_length_le ?_).symm
    simp only [List.length_append, List.length_take, List.length_singleton]
    omega
  · have hfull : capData.handle.length ≤ capData.count := by omega
    rw [List.set_eq_of_length_le hfull, List.take_of_length_le (by omega : _ ≤ capData.count + 1),
      List.take_of_length_le hfull, List.take_left' hlen]

@[simp] theorem reads_length (capData : TpmsCapabilityData) :
    capData.reads.length = capData.count := by
  simp [reads]

/-- Within the array, what `build_cap_handles_response` reads is what the data lists. -/
theorem reads_eq_handles (capData : TpmsCapabilityData) (h : capData.count ≤ tpm2MaxCapHandles) :
    capData.reads = capData.handles := by
  have hlen := capData.handle_length
  refine List.ext_getElem (by rw [reads_length, handles_length]; omega) fun i hi _ => ?_
  simp only [reads, handles, List.getElem_map, List.getElem_range, List.getElem_take]
  rw [reads_length] at hi
  rw [List.getD_eq_getElem?_getD, List.getElem?_eq_getElem (by omega), Option.getD_some]

end TpmsCapabilityData

theorem foldl_vhandleIteratorCallback_capability (l : List UInt32)
    (state : VhandleIteratorState) :
    (l.foldl vhandleIteratorCallback state).capData.capability = state.capData.capability := by
  induction l generalizing state with
  | nil => rfl
  | cons v l ih => rw [List.foldl_cons, ih, vhandleIteratorCallback_capability]

/-- The iteration stores, after what it holds, the vhandles at or above the start, up to
`max_count` in all, and notes whether any is left over; the count runs on where the array
ends. -/
theorem foldl_vhandleIteratorCallback (l : List UInt32) (state : VhandleIteratorState) :
    let above := l.filter fun v => ¬ v < state.startHandle
    let taken := above.take (state.maxCount - state.capData.count)
    (l.foldl vhandleIteratorCallback state).capData.count = state.capData.count + taken.length ∧
      (l.foldl vhandleIteratorCallback state).capData.handles =
        (state.capData.handles ++ taken).take tpm2MaxCapHandles ∧
      (l.foldl vhandleIteratorCallback state).moreData =
        (state.moreData || decide (state.maxCount - state.capData.count < above.length)) := by
  induction l generalizing state with
  | nil => simp [TpmsCapabilityData.take_handles]
  | cons v l ih =>
    obtain ⟨ihc, ihh, ihm⟩ := ih (vhandleIteratorCallback state v)
    simp only [List.foldl_cons, ihc, ihh, ihm, vhandleIteratorCallback_startHandle,
      vhandleIteratorCallback_maxCount]
    unfold vhandleIteratorCallback
    by_cases hv : v < state.startHandle
    · simp [hv]
    have hf : (v :: l).filter (fun v => ¬ v < state.startHandle) =
        v :: l.filter (fun v => ¬ v < state.startHandle) :=
      List.filter_cons_of_pos (by simpa using hv)
    rw [if_neg hv, hf]
    by_cases hc : state.capData.count < state.maxCount
    · obtain ⟨k, hk⟩ : ∃ k, state.maxCount - state.capData.count = k + 1 :=
        ⟨_, (Nat.succ_pred_eq_of_pos (by omega)).symm⟩
      have hk' : state.maxCount - (state.capData.count + 1) = k := by omega
      rw [if_neg (not_not.mpr hc), hk, List.take_succ_cons]
      simp only [TpmsCapabilityData.store, hk', List.length_cons]
      refine ⟨by omega, ?_, by simp⟩
      rw [← TpmsCapabilityData.store, TpmsCapabilityData.store_handles,
        List.take_append_take_self]
      simp
    · have h0 : state.maxCount - state.capData.count = 0 := by omega
      simp [hc, h0]

theorem mem_take_of_lt {l : List UInt32} (hl : l.Pairwise (· < ·)) {n : Nat} {v h : UInt32}
    (hv : v ∈ l) (hh : h ∈ l.take n) (hvh : v < h) : v ∈ l.take n := by
  induction l generalizing n with
  | nil => exact absurd hv (List.not_mem_nil _)
  | cons x l ih =>
    cases n with
    | zero => exact absurd hh (List.not_mem_nil _)
    | succ n =>
      rw [List.take_succ_cons] at hh ⊢
      rcases List.mem_cons.mp hv with rfl | hv
      · exact List.mem_cons_self _ _
      have hxv := List.rel_of_pairwise_cons hl hv
      rcases List.mem_cons.mp hh with rfl | hh
      · exact absurd (UInt32.lt_trans hxv hvh) (UInt32.lt_irrefl _)
      · exact List.mem_cons_of_mem _ (ih hl.of_cons hv hh)

theorem getCapHandles_count (map : HandleMap) (prop count : UInt32) :
    (getCapHandles map prop count).1.count =
      min count.toNat (map.getKeys.filter fun v => ¬ v < prop).length := by
  simp only [getCapHandles, (foldl_vhandleIteratorCallback _ _).1,
    TpmsCapabilityData.empty_count, Nat.zero_add, Nat.sub_zero, List.length_take]
  rw [((List.mergeSort_perm _ _).filter _).length_eq]

theorem getCapHandles_handles (map : HandleMap) (prop count : UInt32) :
    (getCapHandles map prop count).1.handles =
      ((map.getKeys.mergeSort fun a b => handleCompare a b ≤ 0).filter fun v => ¬ v < prop).take
        (min count.toNat tpm2MaxCapHandles) := by
  simp only [getCapHandles, (foldl_vhandleIteratorCallback _ _).2.1,
    TpmsCapabilityData.empty_handles, TpmsCapabilityData.empty_count, List.nil_append,
    Nat.sub_zero, List.take_take]
  rw [Nat.min_comm]

theorem getCapHandles_moreData (map : HandleMap) (prop count : UInt32) :
    (getCapHandles map prop count).2 =
      decide (count.toNat < (map.getKeys.filter fun v => ¬ v < prop).length) := by
  simp only [getCapHandles, (foldl_vhandleIteratorCallback _ _).2.2, Bool.false_or,
    TpmsCapabilityData.empty_count, Nat.sub_zero]
  rw [((List.mergeSort_perm _ _).filter _).length_eq]

theorem maxCapHandles_lt_maxHandleCount : tpm2MaxCapHandles < HandleMap.maxHandleCount := by
  decide

/-- The map holding the vhandles of the first `TPM2_MAX_CAP_HANDLES + 1` counter values. -/
def overfullMap : HandleMap :=
  ⟨(List.range (tpm2MaxCapHandles + 1)).map fun k =>
      handleMapEntryNew 0 (HandleMap.vhandleOf (k + 1)),
    tpm2MaxCapHandles + 1, tpm2MaxCapHandles + 1, by
      have hmax := maxCapHandles_lt_maxHandleCount
      rw [List.map_map]
      refine List.nodup_range _ |>.map_on fun a ha b hb h => ?_
      have ha' := List.mem_range.mp ha
      have hb' := List.mem_range.mp hb
      have := HandleMap.vhandleOf_injective (a := a + 1) (b := b + 1) (by omega) (by omega) h
      omega⟩

theorem overfullMap_above :
    (overfullMap.getKeys.filter fun v => (0x80000000 : UInt32) ≤ v) = overfullMap.getKeys := by
  refine List.filter_eq_self.mpr fun v hv => ?_
  simp only [overfullMap, HandleMap.getKeys, List.map_map, List.mem_map, List.mem_range] at hv
  obtain ⟨k, hk, rfl⟩ := hv
  have hmax := maxCapHandles_lt_maxHandleCount
  simpa using @HandleMap.not_vhandleOf_lt (k + 1) (by omega)

theorem overfullMap_above_length :
    (overfullMap.getKeys.filter fun v => (0x80000000 : UInt32) ≤ v).length = 255 := by
  rw [overfullMap_above]
  simp only [overfullMap, HandleMap.getKeys, List.length_map, List.length_range]
  rfl

/-- For every map, `prop` and `count` for which the answer fits the array: `get_cap_handles`
answers `TPM2_CAP_HANDLES` with `handle [0 .. count)` the first `min count n` of the `n`
vhandles at or above `prop`, strictly ascending, and sets `more_data` exactly when more than
`count` exist.  `handle_compare` is the unsigned order, and the iteration never counts more
than `max_count` past what it started with. -/
theorem getCapHandles_ascending_prefix (map : HandleMap) (prop count : UInt32)
    (hfit : min count.toNat (map.getKeys.filter fun v => prop ≤ v).length ≤ tpm2MaxCapHandles) :
    let above := map.getKeys.filter fun v => prop ≤ v
    let r := getCapHandles map prop count
    r.1.capability = tpm2CapHandles ∧ r.1.count = min count.toNat above.length ∧
      r.1.handles.length = r.1.count ∧ r.1.handles.Pairwise (· < ·) ∧
      (∀ v ∈ r.1.handles, v ∈ above) ∧
      (∀ v ∈ above, ∀ h ∈ r.1.handles, v < h → v ∈ r.1.handles) ∧
      (r.2 = true ↔ count.toNat < above.length) ∧
      (∀ a b, (handleCompare a b < 0 ↔ a < b) ∧ (handleCompare a b = 0 ↔ a = b) ∧
        (0 < handleCompare a b ↔ b < a)) ∧
      ∀ (l : List UInt32) (state : VhandleIteratorState),
        (l.foldl vhandleIteratorCallback state).capData.count ≤
          max state.maxCount state.capData.count := by
  intro above r
  have habove : (map.getKeys.filter fun v => ¬ v < prop) = above :=
    List.filter_congr fun v _ => by simp
  have hsorted := pairwise_mergeSort_handleCompare map.nodup
  have hS : ((map.getKeys.mergeSort fun a b => handleCompare a b ≤ 0).filter
      fun v => ¬ v < prop).Perm above := habove ▸ (List.mergeSort_perm _ _).filter _
  have hcount : r.1.count = min count.toNat above.length := by
    rw [show r.1.count = _ from getCapHandles_count map prop count, habove]
  have hr : r.1.handles = _ := getCapHandles_handles map prop count
  refine ⟨foldl_vhandleIteratorCallback_capability _ _, hcount, ?_, ?_, fun v hv => ?_,
    fun v hv h hh hvh => ?_, ?_, handleCompare_spec, fun l state => ?_⟩
  · have hfit : min count.toNat above.length ≤ tpm2MaxCapHandles := hfit
    rw [hr, List.length_take, hS.length_eq, hcount]
    omega
  · rw [hr]
    exact (hsorted.filter _).sublist (List.take_sublist _ _)
  · rw [hr] at hv
    exact hS.subset (List.mem_of_mem_take hv)
  · rw [hr] at hh ⊢
    exact mem_take_of_lt (hsorted.filter _) (hS.symm.subset hv) hh hvh
  · rw [show r.2 = _ from getCapHandles_moreData map prop count, habove, decide_eq_true_iff]
  · rw [(foldl_vhandleIteratorCallback l state).1, List.length_take]
    omega

theorem overfullMap_first_three :
    min (3 : UInt32).toNat (overfullMap.getKeys.filter fun v => 0x80000000 ≤ v).length ≤
        tpm2MaxCapHandles ∧
      (getCapHandles overfullMap 0x80000000 3).1.count = 3 ∧
      (getCapHandles overfullMap 0x80000000 3).2 = true := by
  have hfit : min (3 : UInt32).toNat
      (overfullMap.getKeys.filter fun v => 0x80000000 ≤ v).length ≤ tpm2MaxCapHandles := by
    rw [overfullMap_above_length]
    decide
  have h := getCapHandles_ascending_prefix overfullMap 0x80000000 3 hfit
  refine ⟨hfit, h.2.1.trans ?_, h.2.2.2.2.2.2.1.mpr ?_⟩ <;> rw [overfullMap_above_length] <;>
    decide

/-- Asked for every vhandle of a map holding 255, `get_cap_handles` counts 255 while
`handle [0 .. count)` reaches only the 254 slots of the array. -/
theorem getCapHandles_count_exceeds_array :
    let above := overfullMap.getKeys.filter fun v => (0x80000000 : UInt32) ≤ v
    let r := getCapHandles overfullMap 0x80000000 0xFFFFFFFF
    min (0xFFFFFFFF : UInt32).toNat above.length = 255 ∧ r.1.count = 255 ∧
      r.1.handles.length = 254 := by
  intro above r
  have hmin : min (0xFFFFFFFF : UInt32).toNat above.length = 255 := by
    rw [overfullMap_above_length]
    rfl
  have hcount : r.1.count = 255 := by
    have hfilter : (overfullMap.getKeys.filter fun v => ¬ v < 0x80000000) = above :=
      List.filter_congr fun v _ => by simp
    rw [show r.1.count = _ from getCapHandles_count _ _ _, hfilter, hmin]
  refine ⟨hmin, hcount, ?_⟩
  rw [TpmsCapabilityData.handles_length, hcount]
  rfl

/-! ## The response buffer -/

theorem storeBytes_cons (buf : List UInt8) (offset : Nat) (b : UInt8) (bytes : List UInt8) :
    storeBytes buf offset (b :: bytes) = storeBytes (buf.set offset b) (offset + 1) bytes := by
  simp only [storeBytes, List.enum_cons, List.foldl_cons, Nat.add_zero,
    List.enumFrom_eq_map_enum, List.foldl_map]
  congr
  funext buf ib
  simp only [Prod.map_fst, Prod.map_snd, id_eq]
  congr 1
  omega

theorem storeBytes_zeros (P bytes : List UInt8) (m : Nat) :
    storeBytes (P ++ List.replicate (bytes.length + m) 0) P.length bytes =
      P ++ bytes ++ List.replicate m 0 := by
  induction bytes generalizing P with
  | nil => simp [storeBytes]
  | cons b bytes ih =>
    rw [storeBytes_cons, List.length_cons, Nat.add_right_comm, List.replicate_succ,
      List.set_append_right _ _ (le_refl _), Nat.sub_self, List.set_cons_zero,
      show P.length + 1 = (P ++ [b]).length by simp, ← List.singleton_append,
      ← List.append_assoc, ih]
    simp

/-- Stores that tile a buffer from `offset` on, each starting where the one before ended. -/
def Tiles : Nat → List (Nat × List UInt8) → Prop
  | _, [] => True
  | offset, s :: rest => s.1 = offset ∧ Tiles (offset + s.2.length) rest

theorem foldl_storeBytes_of_tiles (stores : List (Nat × List UInt8)) (P : List UInt8) (m : Nat)
    (h : Tiles P.length stores) :
    stores.foldl (fun buf s => storeBytes buf s.1 s.2)
        (P ++ List.replicate ((stores.flatMap Prod.snd).length + m) 0) =
      P ++ stores.flatMap Prod.snd ++ List.replicate m 0 := by
  induction stores generalizing P with
  | nil => simp
  | cons s rest ih =>
    obtain ⟨hs, hrest⟩ := h
    rw [List.foldl_cons, List.flatMap_cons, List.length_append, Nat.add_assoc, hs,
      storeBytes_zeros, ← List.length_append] at *
    rw [ih _ (by simpa using hrest)]
    simp

theorem Tiles.store_le {offset : Nat} {stores : List (Nat × List UInt8)}
    (h : Tiles offset stores) :
    ∀ s ∈ stores, s.1 + s.2.length ≤ offset + (stores.flatMap Prod.snd).length := by
  induction stores generalizing offset with
  | nil => simp
  | cons s rest ih =>
    obtain ⟨hs, hrest⟩ := h
    intro s' hs'
    rcases List.mem_cons.mp hs' with rfl | hs'
    · simp [hs]
    · have := ih hrest s' hs'
      simp only [List.flatMap_cons, List.length_append] at this ⊢
      omega

theorem Tiles.append {offset : Nat} {a b : List (Nat × List UInt8)} (ha : Tiles offset a)
    (hb : Tiles (offset + (a.flatMap Prod.snd).length) b) : Tiles offset (a ++ b) := by
  induction a generalizing offset with
  | nil => simpa using hb
  | cons s rest ih =>
    exact ⟨ha.1, ih ha.2 (by simpa [Nat.add_assoc] using hb)⟩

/-- The stores `build_cap_handles_response` makes after `calloc`, in order, each as its offset
and its bytes. -/
def capHandlesResponseStores (capData : TpmsCapabilityData) (moreData : Bool) :
    List (Nat × List UInt8) :=
  [(0, be16 tpm2StNoSessions), (2, be32 (capRespSize capData).toUInt32), (6, be32 tss2RcSuccess),
    (yesNoOffset, [if moreData then 1 else 0]), (capOffset, be32 capData.capability),
    (handleCountOffset, be32 capData.count.toUInt32)] ++
  capData.reads.enum.map fun ih => (handleOffset + 4 * ih.1, be32 ih.2)

theorem buildCapHandlesResponse_eq_foldl (capData : TpmsCapabilityData) (moreData : Bool) :
    buildCapHandlesResponse capData moreData =
      (capHandlesResponseStores capData moreData).foldl (fun buf s => storeBytes buf s.1 s.2)
        (List.replicate (capRespSize capData) 0) := by
  simp only [buildCapHandlesResponse, capHandlesResponseStores, setResponseTag, setResponseSize,
    setResponseCode, List.foldl_append, List.foldl_map, List.foldl_cons, List.foldl_nil]

theorem handleStores_tiles (handles : List UInt32) (k : Nat) :
    Tiles (handleOffset + 4 * k)
      ((handles.enumFrom k).map fun ih => (handleOffset + 4 * ih.1, be32 ih.2)) := by
  induction handles generalizing k with
  | nil => trivial
  | cons h handles ih => exact ⟨rfl, by simpa [Nat.mul_succ, Nat.add_assoc] using ih (k + 1)⟩

theorem handleStores_flatMap (handles : List UInt32) (k : Nat) :
    ((handles.enumFrom k).map fun ih => (handleOffset + 4 * ih.1, be32 ih.2)).flatMap Prod.snd =
      handles.flatMap be32 := by
  induction handles generalizing k with
  | nil => rfl
  | cons h handles ih => simp [ih]

theorem capHandlesResponseStores_tiles (capData : TpmsCapabilityData) (moreData : Bool) :
    Tiles 0 (capHandlesResponseStores capData moreData) :=
  Tiles.append ⟨rfl, rfl, rfl, rfl, rfl, rfl, trivial⟩ (handleStores_tiles capData.reads 0)

theorem capHandlesResponseStores_flatMap (capData : TpmsCapabilityData) (moreData : Bool) :
    (capHandlesResponseStores capData moreData).flatMap Prod.snd =
      be16 tpm2StNoSessions ++ be32 (capRespSize capData).toUInt32 ++ be32 tss2RcSuccess ++
        [if moreData then 1 else 0] ++ be32 capData.capability ++
        be32 capData.count.toUInt32 ++ capData.reads.flatMap be32 := by
  simp [capHandlesResponseStores, List.enum, handleStores_flatMap]

theorem length_flatMap_be32 (handles : List UInt32) :
    (handles.flatMap be32).length = 4 * handles.length := by
  induction handles with
  | nil => rfl
  | cons h handles ih =>
    rw [List.flatMap_cons, List.length_append, ih, be32_length, List.length_cons]
    omega

theorem capHandlesResponseStores_length (capData : TpmsCapabilityData) (moreData : Bool) :
    ((capHandlesResponseStores capData moreData).flatMap Prod.snd).length =
      capRespSize capData := by
  simp only [capHandlesResponseStores_flatMap, List.length_append, be16_length, be32_length,
    List.length_singleton, length_flatMap_be32, TpmsCapabilityData.reads_length, capRespSize,
    tpmHeaderSize]
  omega

/-- `build_cap_handles_response` returns exactly the bytes its stores write: they tile the
`CAP_RESP_SIZE` zeroed bytes `calloc` returned. -/
theorem buildCapHandlesResponse_eq (capData : TpmsCapabilityData) (moreData : Bool) :
    buildCapHandlesResponse capData moreData =
      (capHandlesResponseStores capData moreData).flatMap Prod.snd := by
  have h := foldl_storeBytes_of_tiles _ [] 0 (capHandlesResponseStores_tiles capData moreData)
  rw [List.nil_append, List.nil_append, List.replicate_zero, List.append_nil, Nat.add_zero,
    capHandlesResponseStores_length] at h
  rw [buildCapHandlesResponse_eq_foldl, h]

/-! ## Decoding the response -/

theorem readBe_append {n : Nat} {bytes : List UInt8} (rest : List UInt8) (h : bytes.length = n) :
    readBe n (bytes ++ rest) = some (ofBe bytes, rest) := by
  simp [readBe, h, List.take_left' h, List.drop_left' h]

/-- `n` big-endian 32-bit handles from the front of `bytes`, and what follows them. -/
def readHandles : Nat → List UInt8 → Option (List UInt32 × List UInt8)
  | 0, bytes => some ([], bytes)
  | n + 1, bytes => do
    let (handle, rest) ← readBe 4 bytes
    let (handles, rest) ← readHandles n rest
    pure (handle.toUInt32 :: handles, rest)

theorem readHandles_flatMap (handles : List UInt32) (rest : List UInt8) :
    readHandles handles.length (handles.flatMap be32 ++ rest) = some (handles, rest) := by
  induction handles with
  | nil => rfl
  | cons h handles ih =>
    simp [readHandles, List.append_assoc, readBe_append _ (be32_length h), ih]

/-- The fields of a `GetCapability (TPM2_CAP_HANDLES)` response. -/
structure CapHandlesResponse where
  tag : Nat
  size : Nat
  responseCode : Nat
  moreData : Bool
  capability : Nat
  count : Nat
  handles : List UInt32
deriving DecidableEq, Repr

/-- Modelled from the spec: a `GetCapability (TPM2_CAP_HANDLES)` response read by the TPM wire
format, a 10-byte header (tag, size, response code), then `moreData` (1 byte), the capability
(4 bytes), the count (4 bytes) and `count` 4-byte handles, all big-endian, with nothing
after. -/
def decodeCapHandlesResponse (buf : List UInt8) : Option CapHandlesResponse := do
  let (tag, rest) ← readBe 2 buf
  let (size, rest) ← readBe 4 rest
  let (responseCode, rest) ← readBe 4 rest
  let (moreData, rest) ← readBe 1 rest
  let (capability, rest) ← readBe 4 rest
  let (count, rest) ← readBe 4 rest
  let (handles, rest) ← readHandles count rest
  if rest = [] then pure ⟨tag, size, responseCode, moreData != 0, capability, count, handles⟩
  else none

@[simp] theorem readBe_be16 (x : UInt16) (rest : List UInt8) :
    readBe 2 (be16 x ++ rest) = some (x.toNat, rest) := by
  rw [readBe_append rest (be16_length x), ofBe_be16]

@[simp] theorem readBe_be32 (x : UInt32) (rest : List UInt8) :
    readBe 4 (be32 x ++ rest) = some (x.toNat, rest) := by
  rw [readBe_append rest (be32_length x), ofBe_be32]

@[simp] theorem readBe_one (b : UInt8) (rest : List UInt8) :
    readBe 1 (b :: rest) = some (b.toNat, rest) := by
  simp [readBe, ofBe]

theorem toNat_toUInt32_of_lt {n : Nat} (h : n < 2 ^ 32) : n.toUInt32.toNat = n :=
  UInt32.toNat_ofNat_of_lt h

/-- The buffer decodes to the fields it was built from, provided its size and count fit the
32-bit fields that carry them. -/
theorem decodeCapHandlesResponse_buildCapHandlesResponse (capData : TpmsCapabilityData)
    (moreData : Bool) (hn : capRespSize capData < 2 ^ 32) :
    decodeCapHandlesResponse (buildCapHandlesResponse capData moreData) =
      some ⟨tpm2StNoSessions.toNat, capRespSize capData, tss2RcSuccess.toNat, moreData,
        capData.capability.toNat, capData.count, capData.reads⟩ := by
  have hlen : capData.count < 2 ^ 32 := by
    simp only [capRespSize] at hn
    omega
  have hmore : ((if moreData then 1 else 0 : UInt8).toNat != 0) = moreData := by
    cases moreData <;> rfl
  have hhandles := readHandles_flatMap capData.reads []
  rw [List.append_nil, TpmsCapabilityData.reads_length] at hhandles
  rw [buildCapHandlesResponse_eq, capHandlesResponseStores_flatMap]
  simp only [List.append_assoc, List.singleton_append, List.cons_append, List.nil_append]
  unfold decodeCapHandlesResponse
  simp only [readBe_be16, readBe_be32, readBe_one, bind, Option.bind]
  rw [toNat_toUInt32_of_lt hn, toNat_toUInt32_of_lt hlen, hhandles, hmore]
  rfl

theorem buildCapHandlesResponse_code (capData : TpmsCapabilityData) (moreData : Bool) :
    ((buildCapHandlesResponse capData moreData).drop 6).take 4 = be32 tss2RcSuccess := by
  rw [buildCapHandlesResponse_eq, capHandlesResponseStores_flatMap]
  simp only [List.append_assoc]
  have h6 : (be16 tpm2StNoSessions ++ be32 (capRespSize capData).toUInt32).length = 6 := rfl
  rw [← List.append_assoc (be16 _), List.drop_left' h6, List.take_left' (be32_length _)]

theorem getCapHandlesResponse_eq_some {command : Tpm2Command} {map : HandleMap}
    {response : Tpm2Response} (h : getCapHandlesResponse command map = some response) :
    let r := getCapHandles map command.getProp command.getPropCount
    response.connection = command.connection ∧ response.code = tss2RcSuccess ∧
      response.parameters = (buildCapHandlesResponse r.1 r.2).drop tpmHeaderSize := by
  unfold getCapHandlesResponse at h
  dsimp only at h ⊢
  split_ifs at h
  cases h
  refine ⟨rfl, ?_, ?_⟩
  · simp [tpm2ResponseNew, buildCapHandlesResponse_code]
  · simp only [tpm2ResponseNew, buildCapHandlesResponse_eq]
    rw [List.take_of_length_le (capHandlesResponseStores_length _ _).le]

theorem buildCapHandlesResponse_wire_format (capData : TpmsCapabilityData) (moreData : Bool)
    (hcap : capData.capability = tpm2CapHandles) (hn : capData.count ≤ tpm2MaxCapHandles) :
    buildCapHandlesResponse capData moreData =
        (capHandlesResponseStores capData moreData).foldl (fun buf s => storeBytes buf s.1 s.2)
          (List.replicate (capRespSize capData) 0) ∧
      (buildCapHandlesResponse capData moreData).length = capRespSize capData ∧
      capRespSize capData = 19 + 4 * capData.count ∧
      decodeCapHandlesResponse (buildCapHandlesResponse capData moreData) =
        some ⟨tpm2StNoSessions.toNat, 19 + 4 * capData.count, tss2RcSuccess.toNat,
          moreData, tpm2CapHandles.toNat, capData.count, capData.handles⟩ ∧
      (∀ s ∈ capHandlesResponseStores capData moreData,
        s.1 + s.2.length ≤ capRespSize capData) ∧
      ∀ (command : Tpm2Command) (map : HandleMap) (response : Tpm2Response),
        getCapHandlesResponse command map = some response →
        let r := getCapHandles map command.getProp command.getPropCount
        response.code = tss2RcSuccess ∧
          response.parameters = (buildCapHandlesResponse r.1 r.2).drop tpmHeaderSize := by
  have hsize : capRespSize capData = 19 + 4 * capData.count := by
    simp only [capRespSize, tpmHeaderSize]
    omega
  have hbound : capRespSize capData < 2 ^ 32 := by
    simp only [tpm2MaxCapHandles] at hn
    omega
  refine ⟨buildCapHandlesResponse_eq_foldl capData moreData, ?_, hsize, ?_, ?_,
    fun _ _ _ h => (getCapHandlesResponse_eq_some h).2⟩
  · rw [buildCapHandlesResponse_eq, capHandlesResponseStores_length]
  · rw [decodeCapHandlesResponse_buildCapHandlesResponse capData moreData hbound, hsize, hcap,
      TpmsCapabilityData.reads_eq_handles capData hn]
  · intro s hs
    have h := (capHandlesResponseStores_tiles capData moreData).store_le s hs
    rwa [Nat.zero_add, capHandlesResponseStores_length] at h

/-- Two handles in the first two of the 254 slots. -/
def twoHandles : TpmsCapabilityData :=
  ⟨tpm2CapHandles, 2, [0x80000001, 0x80000002] ++ List.replicate 252 0,
    by rw [List.length_append, List.length_replicate]; rfl⟩

theorem twoHandles_wire_format :
    decodeCapHandlesResponse (buildCapHandlesResponse twoHandles true) =
      some ⟨tpm2StNoSessions.toNat, 27, tss2RcSuccess.toNat, true, tpm2CapHandles.toNat, 2,
        [0x80000001, 0x80000002]⟩ :=
  (buildCapHandlesResponse_wire_format twoHandles true rfl (by decide)).2.2.2.1

end Tabrmd
