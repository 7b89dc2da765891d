import SessionOffload.StoreRun

/-! createSessionRequest of opof_test_util.c, the batch every test program sends, and the
table the store holds after such a batch. -/
namespace SessionOffload
open Transition

/-- The i-th request of a batch; `block` is what its freshly allocated struct holds in the
fields that are not set. The three IPv4 addresses are those inet_pton leaves in memory
for 10.0.1.1, 10.1.0.1 and 192.168.0.1, read as a little-endian word. -/
def testRequest (block : SessionRequestT) (sessId : Word64) : SessionRequestT :=
  { block with
    sessId := sessId
    inlif := 1#32
    outlif := 2#32
    srcIP := 0x0101000a#32
    dstIP := 0x0100010a#32
    srcPort := 80#16
    dstPort := 45678#16
    proto := 6#32
    ipver := ipv4
    nextHop := 0x0100a8c0#32
    actType := actionForward
    cacheTimeout := 15#32 }

def createSessionRequest (block : SessionRequestT) (size : Nat) (startSessionId : Word64) :
    List SessionRequestT :=
  (List.range size).map (fun i => testRequest block (BitVec.ofNat 64 i + startSessionId))

def zeroRequest : SessionRequestT :=
  ⟨0, 0, 0, 0, Vector.replicate 16 0, 0, Vector.replicate 16 0, 0, 0, 0, 0, 0, 0,
    Vector.replicate 16 0, 0⟩

def zeroResponse : SessionResponseT := ⟨0, 0, 0, 0, 0, .established, .notClosed, .accepted⟩

def zeroAddResponse : AddSessionResponseT := ⟨.accepted, Vector.replicate 64 ⟨0, 0⟩, 0, 0⟩

def singleTable (id : Word64) : Server :=
  (opofAddSessionServer (testRequest zeroRequest id) (Server.init (fun _ => 0))).2

theorem singleTable_inv (id : Word64) : (singleTable id).Inv :=
  add_inv _ _ (Server.init_inv _)

def tableOf (ids : List Word64) (start : Option Nat) : Server where
  sessions := ids.zipIdx.map fun e =>
    newRecord e.2 (testRequest zeroRequest e.1) (drawCounters fun _ => 0)
  start := start
  heap := ids.length
  rand := fun _ => 0

@[simp] theorem tableOf_ids (ids : List Word64) (start : Option Nat) :
    (tableOf ids start).ids = ids := by
  rw [Server.ids, tableOf, List.map_map]
  exact List.zipIdx_map_fst 0 ids

theorem tableOf_blocks (ids : List Word64) (start : Option Nat) :
    (tableOf ids start).sessions.map RecordT.addr = List.range ids.length := by
  rw [tableOf, List.map_map, List.range_eq_range']
  exact List.zipIdx_map_snd 0 ids

theorem tableOf_keyed {ids : List Word64} (distinct : ids.Nodup) (start : Option Nat) :
    (tableOf ids start).Keyed where
  distinct := by rwa [tableOf_ids]
  blocks := by
    rw [tableOf_blocks]
    exact List.nodup_range

theorem tableOf_inv {ids : List Word64} (distinct : ids.Nodup)
    (few : ids.length ≤ hashtableSize + 1) (start : Option Nat) : (tableOf ids start).Inv where
  distinct := (tableOf_keyed distinct start).distinct
  blocks := (tableOf_keyed distinct start).blocks
  allocated := fun r member => by
    have block := List.mem_map_of_mem (f := RecordT.addr) member
    rw [tableOf_blocks] at block
    exact List.mem_range.mp block
  closed := fun r member => by
    obtain ⟨e, _, rfl⟩ := List.mem_map.mp member
    rfl
  bounded := by rwa [← Server.length_ids, tableOf_ids]

theorem tableOf_installed (ids : List Word64) (id : Word64) :
    (tableOf ids none).installed (testRequest zeroRequest id) = tableOf (ids ++ [id]) none := by
  have rand : skipCounters (fun _ => 0) = fun _ => 0 := rfl
  simp [tableOf, Server.installed, List.zipIdx_append, testRequest, rand]

/-- Adding sessions to such a table leads to another one, and the empty one is the store as it
starts. -/
theorem tableOf_path (before ids : List Word64) (distinct : (before ++ ids).Nodup)
    (few : (before ++ ids).length ≤ hashtableSize + 1) :
    Path Step (tableOf before none)
      (ids.map fun id => (.add (testRequest zeroRequest id), .add .ok))
      (tableOf (before ++ ids) none) := by
  induction ids generalizing before with
  | nil =>
    rw [List.append_nil]
    exact .nil _
  | cons id ids ih =>
    have step : Step (tableOf before none) (.add (testRequest zeroRequest id), .add .ok)
        (tableOf (before ++ [id]) none) := by
      rcases add_cases (testRequest zeroRequest id) (tableOf before none) with
        ⟨full, _⟩ | ⟨_, present, _⟩ | ⟨_, _, run⟩
      · rw [← Server.length_ids, tableOf_ids] at full
        rw [List.length_append, List.length_cons] at few
        omega
      · rw [tableOf_ids] at present
        exact absurd rfl ((List.nodup_append.mp distinct).2.2 _ present _ List.mem_cons_self)
      · change serve _ (.add _) = _
        simp only [serve, run, tableOf_installed]
    rw [List.append_cons] at distinct few ⊢
    exact .cons step (ih _ distinct few)

def idsFrom (first : Word64) (size : Nat) : List Word64 :=
  (List.range size).map (fun i => BitVec.ofNat 64 i + first)

theorem createSessionRequest_ids (block : SessionRequestT) (size : Nat) (first : Word64) :
    (createSessionRequest block size first).map SessionRequestT.sessId = idsFrom first size := by
  simp [createSessionRequest, idsFrom, testRequest]

theorem idsFrom_nodup (first : Word64) {size : Nat} (room : size ≤ hashtableSize + 1) :
    (idsFrom first size).Nodup := by
  apply List.Nodup.map_on _ List.nodup_range
  intro i hi j hj same
  have lower : BitVec.ofNat 64 i = BitVec.ofNat 64 j := (BitVec.add_left_inj first).mp same
  have values := congrArg BitVec.toNat lower
  simp only [BitVec.toNat_ofNat] at values
  have limit : hashtableSize = 1000 := rfl
  have bi := List.mem_range.mp hi
  have bj := List.mem_range.mp hj
  rwa [Nat.mod_eq_of_lt (by omega), Nat.mod_eq_of_lt (by omega)] at values

def fillEvents (size : Nat) (first : Word64) : List (Call × Reply) :=
  (createSessionRequest zeroRequest size first).map (fun q => (.add q, .add .ok))

theorem fill_reaches (rand : Nat → Nat) (first : Word64) {size : Nat}
    (room : size ≤ hashtableSize + 1) :
    ∃ s, Path Step (Server.init rand) (fillEvents size first) s ∧ s.start = none ∧
      s.ids = idsFrom first size := by
  have named := createSessionRequest_ids zeroRequest size first
  have long : (createSessionRequest zeroRequest size first).length = size := by
    simp [createSessionRequest]
  obtain ⟨s, path, cursor, ids⟩ := fill_path (createSessionRequest zeroRequest size first)
    (Server.init rand) (Server.init_inv rand)
    (by rw [named]; exact idsFrom_nodup first room)
    (by rw [long]; simpa [Server.init] using room)
  exact ⟨s, path, cursor, by rw [ids, named]; rfl⟩

end SessionOffload
