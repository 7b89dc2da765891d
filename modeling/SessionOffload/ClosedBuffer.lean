import SessionOffload.SessionServer
import SessionOffload.TestUtil

/-! The fixed array getClosedSessions hands to the store. -/
namespace SessionOffload
open Transition SessionTableImpl

/-- Every access to the handler's array is inside it exactly when the table has no more
sessions than the array has entries, or the request asks for a page of 1 to that many. -/
theorem closed_indices_in_buffer (rand : Nat → Nat) (es : List (Call × Reply)) (s : Server)
    (path : Path Step (Server.init rand) es s) (pageSize : Word32) :
    (∀ i ∈ closedStores (opofGetClosedSessionsServer pageSize s) ++
        closedReads (opofGetClosedSessionsServer pageSize s), i < bufferMax) ↔
      s.sessions.length ≤ bufferMax ∨
        (1 ≤ pageSize.toNat ∧ pageSize.toNat ≤ bufferMax) := by
  have inv := path_inv (Server.init_inv rand) path
  have bound : s.sessions.length ≤ 1001 := inv.bounded
  obtain ⟨_, stores, _, count, _⟩ := closed_spec inv pageSize
  have inside : (∀ i ∈ closedStores (opofGetClosedSessionsServer pageSize s) ++
      closedReads (opofGetClosedSessionsServer pageSize s), i < bufferMax) ↔
      closedCount pageSize s.sessions.length ≤ bufferMax := by
    rw [closedStores, closedReads, stores, count]
    constructor
    · intro all
      by_contra beyond
      have last := all (closedCount pageSize s.sessions.length - 1)
        (List.mem_append_left _ (List.mem_range.mpr (by omega)))
      omega
    · intro few i hi
      have below : i < closedCount pageSize s.sessions.length := by simpa using hi
      omega
  rw [inside]
  have signed := BitVec.toInt_eq_toNat_cond pageSize
  have width := pageSize.isLt
  have size : bufferMax = 64 := rfl
  unfold closedCount Paging.served
  split at signed <;> split <;> omega

theorem closed_indices_in_buffer_three :
    ∃ s, Path Step (Server.init (fun _ => 0)) (fillEvents 3 0#64) s ∧
      ∀ i ∈ closedStores (opofGetClosedSessionsServer 0#32 s) ++
        closedReads (opofGetClosedSessionsServer 0#32 s), i < bufferMax := by
  obtain ⟨s, path, _, ids⟩ := fill_reaches (fun _ => 0) 0#64 (by decide : 3 ≤ hashtableSize + 1)
  have long : s.sessions.length = 3 := by
    rw [← s.length_ids, ids]
    rfl
  exact ⟨s, path, (closed_indices_in_buffer _ _ s path 0#32).mpr
    (.inl (by rw [long]; decide))⟩

/-- With 65 sessions in the table and page size 0 the store writes behind the array. -/
theorem closed_store_out_of_buffer :
    ∃ s, Path Step (Server.init (fun _ => 0)) (fillEvents 65 0#64) s ∧
      64 ∈ closedStores (opofGetClosedSessionsServer 0#32 s) ∧ ¬ 64 < bufferMax := by
  obtain ⟨s, path, _, ids⟩ := fill_reaches (fun _ => 0) 0#64 (by decide : 65 ≤ hashtableSize + 1)
  have long : s.sessions.length = 65 := by
    rw [← s.length_ids, ids]
    simp [idsFrom]
  obtain ⟨_, stores, _⟩ := closed_spec (path_inv (Server.init_inv _) path) 0#32
  refine ⟨s, path, ?_, by decide⟩
  rw [closedStores, stores, long]
  decide

end SessionOffload
