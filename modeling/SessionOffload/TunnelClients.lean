import SessionOffload.TunnelHelpers
import SessionOffload.TunnelTurns

/-! tunnels_client.py: the calls of its run, and any number of runs side by side against one
server. -/
namespace SessionOffload
open Inet Check Transition

section Makes
variable {order : ByteOrder} {call : HelperCall} {request : IpTunnelRequest}

def HelperCall.tunnelType : HelperCall → TunnelType
  | ipsecEnc .. => .ipsecEncryption
  | ipsecDec .. => .ipsecDecryption
  | geneveEncap .. => .geneveEncap
  | geneveDecap .. => .geneveDecap

def HelperCall.link (call : HelperCall) : Link where
  id := BitVec.ofInt 64 call.tunnelId
  upstream := call.criteria.tunnelId.map (BitVec.ofInt 64)
  byIp := call.criteria.given.written.source.isSome

structure Makes (call : HelperCall) (request : IpTunnelRequest) : Prop where
  id : request.tunnelId = BitVec.ofInt 64 call.tunnelId
  operation : request.operation = operationCreate
  check : checkTunnelValidity request = .ok call.tunnelType
  link : request.link = call.link

theorem built_criteria (proper : call.Proper order) (built : Built order call request) :
    request.matchCriteria = criteria order call.criteria.given.written := by
  have written := assign_written proper
  cases built with
  | ipsecEnc set => exact Except.ok.inj (set.symm.trans written)
  | ipsecDec set => exact Except.ok.inj (set.symm.trans written)
  | geneveEncap set => exact Except.ok.inj (set.symm.trans written)
  | geneveDecap set => exact Except.ok.inj (set.symm.trans written)

theorem helper_link (proper : call.Proper order) (built : Built order call request) :
    request.link = call.link := by
  have left := written_proper proper
  have id : request.tunnelId = BitVec.ofInt 64 call.tunnelId := by
    rw [built_id built, BitVec.ofInt_natCast, BitVec.ofNat_toNat, BitVec.setWidth_eq]
  have byIp : decide (request.matchCriteria.ipv4Match.sourceIp ≠ 0#32) =
      call.criteria.given.written.source.isSome := by
    rw [built_criteria proper built, Bool.eq_iff_iff, decide_eq_true_iff]
    exact criteria_byIp left
  rw [IpTunnelRequest.link, HelperCall.link, id, byIp, built_criteria proper built,
    criteria_upstream left]
  rfl

theorem built_type (built : Built order call request) {tunnelType : TunnelType}
    (check : checkTunnelValidity request = .ok tunnelType) : tunnelType = call.tunnelType := by
  cases built with
  | ipsecEnc =>
    have last := (then_ok.mp (then_ok.mp check).2).2
    exact (Except.ok.inj last).symm
  | ipsecDec =>
    have last := (then_ok.mp (then_ok.mp check).2).2
    exact (Except.ok.inj last).symm
  | geneveEncap => exact (Except.ok.inj (then_ok.mp check).2).symm
  | geneveDecap => exact (Except.ok.inj check).symm

def Dotted (text : String) : Bool :=
  (inetPton text).any fun bytes => bytes ≠ [0#8, 0#8, 0#8, 0#8]

theorem dotted_proper {text : String} {mask : Int} (dotted : Dotted text) (fits : Fits 32 mask) :
    ProperAddress order (some (text, mask)) := by
  unfold Dotted at dotted
  cases parsed : inetPton text with
  | none =>
    rw [parsed] at dotted
    cases dotted
  | some bytes =>
    rw [parsed, Option.any_some, decide_eq_true_iff] at dotted
    have read : ipv4ToInt order text = .ok (intFromBytes order bytes) := by
      simp only [ipv4ToInt, parsed]
    refine address_proper read (fun zero => dotted ?_) fits
    have four : bytes.length = 4 := (inetPton_iff.mp parsed).1
    refine @intFromBytes_inj order _ _ four ?_
    rw [Int.natCast_eq_zero.mp zero]
    cases order <;> rfl

def Usable (g : Given) : Bool :=
  g.source.all (fun e => Dotted e.1 ∧ Fits 32 e.2) && g.dest.all (fun e => Dotted e.1 ∧ Fits 32 e.2)
    && g.tunnelId.all (fun v => v ≠ 0 ∧ Fits 64 v) && g.spi.all (fun v => v ≠ 0 ∧ Fits 32 v)
    && g.vni.all (fun v => v ≠ 0 ∧ Fits 32 v) && (g.spi.isNone || g.vni.isNone)

theorem usable_proper {g : Given} (usable : Usable g) : g.Proper order := by
  simp only [Usable, Bool.and_eq_true, Bool.or_eq_true, Option.isNone_iff_eq_none] at usable
  obtain ⟨⟨⟨⟨⟨source, dest⟩, tunnelId⟩, spi⟩, vni⟩, single⟩ := usable
  have address {given : Option (String × Int)}
      (all : given.all fun e => Dotted e.1 ∧ Fits 32 e.2) : ProperAddress order given := by
    cases given with
    | none => exact properAddress_none
    | some e =>
      rw [Option.all_some, decide_eq_true_iff] at all
      exact dotted_proper all.1 all.2
  exact ⟨address source, address dest, number_proper tunnelId, number_proper spi,
    number_proper vni, single⟩

theorem helper_makes (usable : Usable call.criteria.given) (storable : call.Storable)
    (valid : call.Valid) : ∃ request, call.request order = .ok request ∧ Makes call request := by
  have proper : call.Proper order := usable_proper usable
  obtain ⟨request, run⟩ := (helper_answers order call).mpr ⟨proper_assignable proper, storable⟩
  have built := request_built run
  obtain ⟨tunnelType, check⟩ := (built_valid built).mpr valid
  rw [built_type built check] at check
  have link := helper_link proper built
  exact ⟨request, run, congrArg Link.id link, built_create built, check, link⟩

end Makes

/-- The requests of an iterator, then the end of the call. The counters are those the server
draws for them. -/
def createIpTunnelCalls (counters : Nat → TunnelCounters) (first : Nat)
    (requests : List IpTunnelRequest) : List ServiceCall :=
  (requests.zipIdx first).map (fun (request, i) => .request (counters i, request)) ++ [.summary]

def tunnelMatch (tunnelId : Word64) : Match := { Match.empty with tunnelId := some tunnelId.toNat }

section Run
variable (order : ByteOrder) (keys : Nat → Fin (2 ^ 256)) (counters : Nat → TunnelCounters)

def tunnelAddIpsecGeneve : Except MatchRaised (List ServiceCall) := do
  let firstDecKey := randomKey (keys 0)
  let secondDecKey := randomKey (keys 1)
  let ipsecDecTunnel ← createIpsecDecTunnel order 10000 (hostMatch "11.0.0.1" "11.0.0.2") 780
    firstDecKey transportNatTraversal aes256gcm64 nextActionRecirculate
  let geneveEncapTunnel ← createGeneveEncap order 10001 (tunnelMatch ipsecDecTunnel.tunnelId)
    "5.5.5.5" "6.6.6.6" "102030405060" "605040302010" 500 nextActionForward
  let geneveDecapTunnel ← createGeneveDecap order 10002
    { hostMatch "11.0.0.1" "11.0.0.2" with geneveVni := some 500 } nextActionRecirculate
  let ipsecEncTunnel ← createIpsecEncTunnel order 10003 (tunnelMatch geneveDecapTunnel.tunnelId)
    4587 tunnelNatTraversal "11.0.0.2" "11.0.0.1" aes256gcm64 nextActionForward (keys 2)
  let ipsecEncTunnelUpdate ← updateIpsecEncTunnel ipsecEncTunnel.tunnelId.toNat 4590 (keys 3)
  let rekeyed := updateIpsecDecTunnel ipsecDecTunnel.tunnelId none
    (some (1030#32, some secondDecKey, operationCreate)) none
  let ipsecDecTunnelUpdate := updateIpsecDecTunnel ipsecDecTunnel.tunnelId
    (some (780#32, none, operationDelete)) none none
  .ok (createIpTunnelCalls counters 0
      [ipsecDecTunnel, geneveEncapTunnel, geneveDecapTunnel, ipsecEncTunnel] ++
    createIpTunnelCalls counters 4 [ipsecEncTunnelUpdate] ++
    createIpTunnelCalls counters 5 [rekeyed] ++
    [.getIpTunnelStats ipsecDecTunnelUpdate.tunnelId,
      .getIpTunnel ipsecDecTunnelUpdate.tunnelId] ++
    createIpTunnelCalls counters 6 [ipsecDecTunnelUpdate] ++
    [.getAllIpTunnelsStats 2#32])

def fourTunnelChain : Except MatchRaised (List ServiceCall) := do
  let ipsecDecTunnel ← createIpsecDecTunnel order 20000 (hostMatch "12.0.0.1" "12.0.0.2") 980
    (randomKey (keys 4)) tunnelMode aes256gcm64 nextActionRecirculate
  let geneveDecapTunnel ← createGeneveDecap order 20001 (tunnelMatch ipsecDecTunnel.tunnelId)
    nextActionRecirculate
  let geneveEncapTunnel ← createGeneveEncap order 20002 (tunnelMatch geneveDecapTunnel.tunnelId)
    "7.7.7.7" "8.8.8.8" "102030405060" "605040302010" 700 nextActionRecirculate
  let ipsecEncTunnel ← createIpsecEncTunnel order 20003
    { tunnelMatch geneveEncapTunnel.tunnelId with spi := some 920 } 45888 transport "13.0.0.2"
    "13.0.0.1" aes256gcm64 nextActionForward (keys 5)
  .ok (createIpTunnelCalls counters 7
    [ipsecDecTunnel, geneveDecapTunnel, geneveEncapTunnel, ipsecEncTunnel])

def tunnelRecursionWithoutTunnelId : Except MatchRaised (List ServiceCall) := do
  let ipsecEncTunnel ← createIpsecEncTunnel order 30000 (hostMatch "2.2.2.2" "3.3.3.3") 50000
    tunnelMode "14.0.0.2" "14.0.0.1" aes256gcm64 nextActionRecirculate (keys 6)
  let geneveEncapTunnel ← createGeneveEncap order 30001 (hostMatch "14.0.0.2" "14.0.0.1")
    "9.9.9.9" "10.10.10.10" "102030405060" "605040302010" 701 nextActionRecirculate
  .ok (createIpTunnelCalls counters 11 [ipsecEncTunnel, geneveEncapTunnel])

def tunnelRecursionWithTunnelIdAndIp : Except MatchRaised (List ServiceCall) := do
  let ipsecEncTunnel ← createIpsecDecTunnel order 40000 (hostMatch "2.2.2.2" "3.3.3.3") 80000
    (randomKey (keys 7)) tunnelNatTraversal aes256gcm64 nextActionRecirculate
  let geneveEncapTunnel1 ← createGeneveEncap order 40001
    { hostMatch "15.0.0.2" "15.0.0.1" with tunnelId := some 40000 }
    "9.9.9.9" "10.10.10.10" "102030405060" "605040302010" 701 nextActionRecirculate
  let geneveEncapTunnel2 ← createGeneveEncap order 40002
    { hostMatch "16.0.0.2" "16.0.0.1" with tunnelId := some 40000 }
    "11.11.11.11" "12.12.12.12" "102030405060" "605040302010" 702 nextActionRecirculate
  .ok (createIpTunnelCalls counters 13 [ipsecEncTunnel, geneveEncapTunnel1, geneveEncapTunnel2])

def tunnelsClientRun : Except MatchRaised (List ServiceCall) := do
  let add ← tunnelAddIpsecGeneve order keys counters
  let chain ← fourTunnelChain order keys counters
  let withoutId ← tunnelRecursionWithoutTunnelId order keys counters
  let withIdAndIp ← tunnelRecursionWithTunnelIdAndIp order keys counters
  .ok ([.capabilities] ++ add ++ chain ++ withoutId ++ withIdAndIp)

end Run

def clientPlan : TunnelPlan where
  entries :=
    [(10000#64, ⟨none, true, .ipsecDecryption⟩),
      (10001#64, ⟨some 10000#64, false, .geneveEncap⟩),
      (10002#64, ⟨none, true, .geneveDecap⟩),
      (10003#64, ⟨some 10002#64, false, .ipsecEncryption⟩),
      (20000#64, ⟨none, true, .ipsecDecryption⟩),
      (20001#64, ⟨some 20000#64, false, .geneveDecap⟩),
      (20002#64, ⟨some 20001#64, false, .geneveEncap⟩),
      (20003#64, ⟨some 20002#64, false, .ipsecEncryption⟩),
      (30000#64, ⟨none, true, .ipsecEncryption⟩),
      (30001#64, ⟨none, true, .geneveEncap⟩),
      (40000#64, ⟨none, true, .ipsecDecryption⟩),
      (40001#64, ⟨some 40000#64, true, .geneveEncap⟩),
      (40002#64, ⟨some 40000#64, true, .geneveEncap⟩)]
  distinct := by decide

theorem clientPlan_plain : Plain clientPlan := ⟨by decide, by decide, by decide⟩

section Keeps
variable {order : ByteOrder} {made ids : List Word64} {rest : List ServiceCall}
  {request : IpTunnelRequest} {counters : TunnelCounters} {id : Word64}

structure Keeps (made : List Word64) (calls : List ServiceCall) (ids : List Word64) : Prop where
  disciplined : Disciplined clientPlan made calls
  created : createdIds calls = ids

theorem Keeps.done (made : List Word64) : Keeps made [] [] := ⟨.done made, rfl⟩

theorem Keeps.create {call : HelperCall} (makes : Makes call request) (p : PlannedTunnel)
    (here : BitVec.ofInt 64 call.tunnelId = id) (listed : clientPlan.get? id = some p)
    (link : call.link = p.link id) (tunnelType : call.tunnelType = p.tunnelType)
    (upstream : p.upstream.all made.contains) (later : Keeps (id :: made) rest ids) :
    Keeps made (.request (counters, request) :: rest) (id :: ids) := by
  have named : request.tunnelId = id := makes.id.trans here
  subst named
  refine ⟨.create makes.operation listed (makes.link.trans link) (tunnelType ▸ makes.check) ?_
    later.disciplined, ?_⟩
  · intro m refers
    rw [refers] at upstream
    exact List.contains_iff_mem.mp upstream
  · have creates : (ServiceCall.request (counters, request)).creates? = some request.tunnelId :=
      if_pos makes.operation
    rw [createdIds, List.filterMap_cons_some creates]
    exact congrArg _ later.created

theorem Keeps.update (p : PlannedTunnel) (operation : request.operation = operationUpdate)
    (here : request.tunnelId = id) (listed : clientPlan.get? id = some p)
    (check : checkIpsecTunnelValidity request.ipsecTunnel = .ok p.tunnelType)
    (known : made.contains id) (later : Keeps made rest ids) :
    Keeps made (.request (counters, request) :: rest) ids := by
  subst here
  refine ⟨.update operation listed check (List.contains_iff_mem.mp known) later.disciplined, ?_⟩
  have other : request.operation ≠ operationCreate := by
    rw [operation]
    decide
  have creates : (ServiceCall.request (counters, request)).creates? = none := if_neg other
  rw [createdIds, List.filterMap_cons_none creates]
  exact later.created

theorem Keeps.summary (later : Keeps made rest ids) : Keeps made (.summary :: rest) ids :=
  ⟨.summary later.disciplined, later.created⟩

theorem Keeps.reads (known : made.contains id) (later : Keeps made rest ids) :
    Keeps made (.getIpTunnelStats id :: .getIpTunnel id :: rest) ids :=
  have known := List.contains_iff_mem.mp known
  ⟨.stats known (.tunnel known later.disciplined), later.created⟩

theorem Keeps.allStats {tunnelsPerRequest : Word32} (later : Keeps made rest ids) :
    Keeps made (.getAllIpTunnelsStats tunnelsPerRequest :: rest) ids :=
  ⟨.allStats later.disciplined, later.created⟩

theorem Disciplined.mono {plan : TunnelPlan} {calls : List ServiceCall}
    (disciplined : Disciplined plan made calls) :
    ∀ {more : List Word64}, (∀ id ∈ made, id ∈ more) → Disciplined plan more calls := by
  induction disciplined with
  | done => exact fun _ => .done _
  | create operation listed link check upstream _ ih =>
    refine fun wider => .create operation listed link check ?_ (ih ?_)
    · exact fun m refers => wider m (upstream m refers)
    · exact List.forall_mem_cons.mpr
        ⟨List.mem_cons_self, fun id old => List.mem_cons_of_mem _ (wider id old)⟩
  | update operation listed check known _ ih =>
    exact fun wider => .update operation listed check (wider _ known) (ih wider)
  | summary _ ih => exact fun wider => .summary (ih wider)
  | capabilities _ ih => exact fun wider => .capabilities (ih wider)
  | tunnel known _ ih => exact fun wider => .tunnel (wider _ known) (ih wider)
  | stats known _ ih => exact fun wider => .stats (wider _ known) (ih wider)
  | allStats _ ih => exact fun wider => .allStats (ih wider)

theorem Disciplined.append {plan : TunnelPlan} {first second : List ServiceCall}
    (here : Disciplined plan made first) (later : Disciplined plan [] second) :
    Disciplined plan made (first ++ second) := by
  induction here with
  | done => exact later.mono fun _ member => absurd member List.not_mem_nil
  | create operation listed link check upstream _ ih =>
    exact .create operation listed link check upstream ih
  | update operation listed check known _ ih => exact .update operation listed check known ih
  | summary _ ih => exact .summary ih
  | capabilities _ ih => exact .capabilities ih
  | tunnel known _ ih => exact .tunnel known ih
  | stats known _ ih => exact .stats known ih
  | allStats _ ih => exact .allStats ih

theorem Keeps.append {first second : List ServiceCall} {ids' : List Word64}
    (here : Keeps made first ids) (later : Keeps [] second ids') :
    Keeps made (first ++ second) (ids ++ ids') := by
  refine ⟨here.disciplined.append later.disciplined, ?_⟩
  rw [createdIds, List.filterMap_append]
  exact congrArg₂ _ here.created later.created

end Keeps

def Works (part : Except MatchRaised (List ServiceCall)) (ids : List Word64) : Prop :=
  ∃ calls, part = .ok calls ∧ Keeps [] calls ids

section Works
variable {order : ByteOrder} {tunnelId spi : Int} {m : Match} {nextAction : NextAction}
  {later : IpTunnelRequest → Except MatchRaised (List ServiceCall)} {ids : List Word64}

theorem works_helper (call : HelperCall) (usable : Usable call.criteria.given)
    (storable : call.Storable) (valid : call.Valid)
    (next : ∀ request, Makes call request → Works (later request) ids) :
    Works (call.request order >>= later) ids := by
  obtain ⟨request, run, makes⟩ : ∃ request, call.request order = .ok request ∧
      Makes call request := helper_makes usable storable valid
  rw [run]
  exact next request makes

theorem works_ipsecDec {drawn : Fin (2 ^ 256)} {tunnelType : IPSecTunnelType} {encType : EncType}
    (fine : Usable m.given ∧ Fits 64 tunnelId ∧ Fits 32 spi ∧ encType ∈ supportedIpsecEnc ∧ spi ≠ 0)
    (next : ∀ request, Makes (.ipsecDec tunnelId m spi (randomKey drawn) tunnelType encType
      nextAction) request → Works (later request) ids) :
    Works (createIpsecDecTunnel order tunnelId m spi (randomKey drawn) tunnelType encType
      nextAction >>= later) ids := by
  obtain ⟨usable, id, spiFits, supported, used⟩ := fine
  exact works_helper (.ipsecDec tunnelId m spi (randomKey drawn) tunnelType encType nextAction)
    usable ⟨id, spiFits⟩ ⟨supported, randomKey_length drawn, used⟩ next

theorem works_ipsecEnc {drawn : Fin (2 ^ 256)} {tunnelType : IPSecTunnelType} {encType : EncType}
    {source destination : String}
    (fine : Usable m.given ∧ (Fits 64 tunnelId ∧ Fits 32 spi ∧ (inetPton source).isSome ∧
      (inetPton destination).isSome) ∧ encType ∈ supportedIpsecEnc ∧ spi ≠ 0)
    (next : ∀ request, Makes (.ipsecEnc tunnelId m spi tunnelType source destination encType
      nextAction drawn) request → Works (later request) ids) :
    Works (createIpsecEncTunnel order tunnelId m spi tunnelType source destination encType
      nextAction drawn >>= later) ids :=
  works_helper (.ipsecEnc tunnelId m spi tunnelType source destination encType nextAction drawn)
    fine.1 fine.2.1 fine.2.2 next

theorem works_geneveEncap {sourceIp destIp sourceMac destMac : String} {vni : Int}
    (fine : Usable m.given ∧ (Fits 64 tunnelId ∧ (inetPton sourceIp).isSome ∧
      (inetPton destIp).isSome ∧ Fits 32 vni) ∧ (encode sourceMac).length = 12 ∧
      (encode destMac).length = 12 ∧ vni < 2 ^ 24)
    (next : ∀ request, Makes (.geneveEncap tunnelId m sourceIp destIp sourceMac destMac vni
      nextAction) request → Works (later request) ids) :
    Works (createGeneveEncap order tunnelId m sourceIp destIp sourceMac destMac vni nextAction >>=
      later) ids :=
  works_helper (.geneveEncap tunnelId m sourceIp destIp sourceMac destMac vni nextAction)
    fine.1 fine.2.1 fine.2.2 next

theorem works_geneveDecap (fine : Usable m.given ∧ Fits 64 tunnelId)
    (next : ∀ request, Makes (.geneveDecap tunnelId m nextAction) request →
      Works (later request) ids) :
    Works (createGeneveDecap order tunnelId m nextAction >>= later) ids :=
  works_helper (.geneveDecap tunnelId m nextAction) fine.1 fine.2 trivial next

theorem update_checked {mode : IPSecMode} (accepted : AcceptedIpsec mode) :
    checkIpsecTunnelValidity ⟨some mode⟩ = .ok mode.tunnelType := by
  obtain ⟨tunnelType, check⟩ := accepted
  have same : tunnelType = mode.tunnelType := by
    cases mode with
    | ipsecEnc => exact (Except.ok.inj (then_ok.mp (then_ok.mp check).2).2).symm
    | ipsecDec => exact (Except.ok.inj (then_ok.mp (then_ok.mp check).2).2).symm
  rw [same] at check
  exact check

theorem works_encUpdate {drawn : Fin (2 ^ 256)}
    (fine : Fits 64 tunnelId ∧ Fits 32 spi ∧ spi ≠ 0)
    (next : ∀ request, request.tunnelId = BitVec.ofInt 64 tunnelId →
      request.operation = operationUpdate →
      checkIpsecTunnelValidity request.ipsecTunnel = .ok .ipsecEncryption →
      Works (later request) ids) :
    Works (updateIpsecEncTunnel tunnelId spi drawn >>= later) ids := by
  obtain ⟨id, spiFits, used⟩ := fine
  have idStored := unsigned_ok id
  have spiStored := unsigned_ok spiFits
  rw [updateIpsecEncTunnel, idStored, spiStored]
  refine next _ rfl rfl (update_checked ((enc_valid rfl (randomKey_length drawn)).mpr ?_))
  exact ⟨List.mem_cons_self, (word_zero_iff spiStored).mpr used⟩

theorem decUpdate_checked (id : Word64) {ipsecSAs : List IPSecSAParams}
    (sized : ∀ sa ∈ ipsecSAs, KeySized sa) (used : ∀ sa ∈ ipsecSAs, sa.spi ≠ 0#32) :
    checkIpsecTunnelValidity (decUpdate id ipsecSAs).ipsecTunnel = .ok .ipsecDecryption := by
  refine update_checked ((ipsec_accepted (.ipsecDec ⟨0#32, aes256gcm64, ipsecSAs⟩)).mpr ?_)
  exact ⟨List.mem_cons_self, sized, fun sa first => used sa (List.mem_of_mem_head? first)⟩

end Works

section Scenarios
variable (order : ByteOrder) (keys : Nat → Fin (2 ^ 256)) (counters : Nat → TunnelCounters)

theorem fourTunnelChain_works :
    Works (fourTunnelChain order keys counters) [20000#64, 20001#64, 20002#64, 20003#64] := by
  refine works_ipsecDec (by decide) fun dec makesDec => ?_
  rw [show dec.tunnelId = 20000#64 from makesDec.id]
  refine works_geneveDecap (by decide) fun decap makesDecap => ?_
  rw [show decap.tunnelId = 20001#64 from makesDecap.id]
  refine works_geneveEncap (by decide) fun encap makesEncap => ?_
  rw [show encap.tunnelId = 20002#64 from makesEncap.id]
  refine works_ipsecEnc (by decide) fun enc makesEnc => ?_
  refine ⟨_, rfl, ?_⟩
  refine .create makesDec ⟨none, true, .ipsecDecryption⟩ rfl rfl rfl rfl rfl ?_
  refine .create makesDecap ⟨some 20000#64, false, .geneveDecap⟩ rfl rfl rfl rfl rfl ?_
  refine .create makesEncap ⟨some 20001#64, false, .geneveEncap⟩ rfl rfl rfl rfl rfl ?_
  refine .create makesEnc ⟨some 20002#64, false, .ipsecEncryption⟩ rfl rfl rfl rfl rfl ?_
  exact (Keeps.done _).summary

theorem tunnelRecursionWithoutTunnelId_works :
    Works (tunnelRecursionWithoutTunnelId order keys counters) [30000#64, 30001#64] := by
  refine works_ipsecEnc (by decide) fun enc makesEnc => ?_
  refine works_geneveEncap (by decide) fun encap makesEncap => ?_
  refine ⟨_, rfl, ?_⟩
  refine .create makesEnc ⟨none, true, .ipsecEncryption⟩ rfl rfl rfl rfl rfl ?_
  refine .create makesEncap ⟨none, true, .geneveEncap⟩ rfl rfl rfl rfl rfl ?_
  exact (Keeps.done _).summary

theorem tunnelRecursionWithTunnelIdAndIp_works :
    Works (tunnelRecursionWithTunnelIdAndIp order keys counters)
      [40000#64, 40001#64, 40002#64] := by
  refine works_ipsecDec (by decide) fun dec makesDec => ?_
  refine works_geneveEncap (by decide) fun first makesFirst => ?_
  refine works_geneveEncap (by decide) fun second makesSecond => ?_
  refine ⟨_, rfl, ?_⟩
  refine .create makesDec ⟨none, true, .ipsecDecryption⟩ rfl rfl rfl rfl rfl ?_
  refine .create makesFirst ⟨some 40000#64, true, .geneveEncap⟩ rfl rfl rfl rfl rfl ?_
  refine .create makesSecond ⟨some 40000#64, true, .geneveEncap⟩ rfl rfl rfl rfl rfl ?_
  exact (Keeps.done _).summary

theorem tunnelAddIpsecGeneve_works :
    Works (tunnelAddIpsecGeneve order keys counters)
      [10000#64, 10001#64, 10002#64, 10003#64] := by
  refine works_ipsecDec (by decide) fun dec makesDec => ?_
  have decNamed : dec.tunnelId = 10000#64 := makesDec.id
  rw [decNamed]
  refine works_geneveEncap (by decide) fun encap makesEncap => ?_
  refine works_geneveDecap (by decide) fun decap makesDecap => ?_
  rw [show decap.tunnelId = 10002#64 from makesDecap.id]
  refine works_ipsecEnc (by decide) fun enc makesEnc => ?_
  rw [show enc.tunnelId = 10003#64 from makesEnc.id]
  refine works_encUpdate (by decide) fun update updateNamed updates updateChecked => ?_
  have rekeyed : checkIpsecTunnelValidity (updateIpsecDecTunnel 10000#64 none
      (some (1030#32, some (randomKey (keys 1)), operationCreate)) none).ipsecTunnel =
        .ok .ipsecDecryption :=
    decUpdate_checked _ (List.forall_mem_singleton.mpr fun _ _ => randomKey_length (keys 1))
      (List.forall_mem_singleton.mpr (show 1030#32 ≠ 0#32 by decide))
  have removed : checkIpsecTunnelValidity (updateIpsecDecTunnel 10000#64
      (some (780#32, none, operationDelete)) none none).ipsecTunnel = .ok .ipsecDecryption :=
    decUpdate_checked _ (List.forall_mem_singleton.mpr fun _ kept => absurd rfl kept)
      (List.forall_mem_singleton.mpr (show 780#32 ≠ 0#32 by decide))
  refine ⟨_, rfl, ?_⟩
  refine .create makesDec ⟨none, true, .ipsecDecryption⟩ rfl rfl rfl rfl rfl ?_
  refine .create makesEncap ⟨some 10000#64, false, .geneveEncap⟩ rfl rfl rfl rfl rfl ?_
  refine .create makesDecap ⟨none, true, .geneveDecap⟩ rfl rfl rfl rfl rfl ?_
  refine .create makesEnc ⟨some 10002#64, false, .ipsecEncryption⟩ rfl rfl rfl rfl rfl ?_
  refine .summary (.update ⟨some 10002#64, false, .ipsecEncryption⟩ updates updateNamed rfl
    updateChecked rfl ?_)
  refine .summary (.update ⟨none, true, .ipsecDecryption⟩ rfl rfl rfl rekeyed rfl ?_)
  refine .summary (.reads rfl (.update ⟨none, true, .ipsecDecryption⟩ rfl rfl rfl removed rfl ?_))
  exact .summary (.allStats (.done _))

theorem tunnelsClientRun_works :
    ∃ program, tunnelsClientRun order keys counters = .ok program ∧
      Disciplined clientPlan [] program ∧ createdIds program = clientPlan.keys := by
  obtain ⟨add, addRun, adds⟩ := tunnelAddIpsecGeneve_works order keys counters
  obtain ⟨chain, chainRun, chains⟩ := fourTunnelChain_works order keys counters
  obtain ⟨withoutId, withoutIdRun, recurses⟩ :=
    tunnelRecursionWithoutTunnelId_works order keys counters
  obtain ⟨withId, withIdRun, recursesToo⟩ :=
    tunnelRecursionWithTunnelIdAndIp_works order keys counters
  have whole := ((adds.append chains).append recurses).append recursesToo
  refine ⟨.capabilities :: (add ++ chain ++ withoutId ++ withId), ?_, ?_, whole.created⟩
  · rw [tunnelsClientRun, addRun, chainRun, withoutIdRun, withIdRun]
    rfl
  · exact .capabilities whole.disciplined

end Scenarios

structure ClientRun where
  order : ByteOrder
  keys : Nat → Fin (2 ^ 256)
  counters : Nat → TunnelCounters

def ClientRun.program (run : ClientRun) : Except MatchRaised (List ServiceCall) :=
  tunnelsClientRun run.order run.keys run.counters

theorem programs_work (runs : List ClientRun) :
    ∃ programs, runs.mapM ClientRun.program = .ok programs ∧ programs.length = runs.length ∧
      ∀ program ∈ programs,
        Disciplined clientPlan [] program ∧ createdIds program = clientPlan.keys := by
  induction runs with
  | nil => exact ⟨[], rfl, rfl, nofun⟩
  | cons run runs ih =>
    obtain ⟨program, made, works⟩ := tunnelsClientRun_works run.order run.keys run.counters
    obtain ⟨programs, rest, length, all⟩ := ih
    refine ⟨program :: programs, ?_, congrArg Nat.succ length,
      List.forall_mem_cons.mpr ⟨works, all⟩⟩
    have first : run.program = .ok program := made
    rw [List.mapM_cons, first, rest]
    rfl

/-- Any number of runs of the client at once: each has its calls, whatever it draws, and in
whatever order they come, no call raises, each stored tunnel is valid and the one of the plan, a
summary would show the chains as they are, no run gets stuck, and all of them end, with the
tunnels of the plan in the table and no other. -/
theorem client_runs_coordinate (runs : List ClientRun) :
    ∃ programs, runs.mapM ClientRun.program = .ok programs ∧
    ∀ ls t, Path ClientsStep (.start programs) ls t →
      (∀ l ∈ ls, l.2.2.raised? = none) ∧
      ValidTable t.service.tunnels.contents ∧
      (∀ id tunnel, t.service.tunnels.contents.get? id = some tunnel →
        ∃ p, clientPlan.get? id = some p ∧ tunnel.link id = p.link id ∧
          tunnel.tunnelType = p.tunnelType) ∧
      Reconstructed t.service.tunnels.contents ∧
      (∀ (j : Nat) (client : TunnelClient), t.clients[j]? = some client → client.call ≠ none →
        ∃ l u, ClientsStep t (j, l) u) ∧
      ls.length ≤ (programs.map List.length).sum * 15 ∧
      ((∀ client ∈ t.clients, client.call = none) → runs ≠ [] → ∀ id,
        id ∈ t.service.tunnels.contents.keys ↔ id ∈ clientPlan.keys) := by
  obtain ⟨programs, made, length, all⟩ := programs_work runs
  refine ⟨programs, made, fun ls t path => ?_⟩
  have disciplined : ∀ program ∈ programs, Disciplined clientPlan [] program :=
    fun program member => (all program member).1
  obtain ⟨coordinated, quiet⟩ := coordinated_run clientPlan_plain disciplined path
  have planned := coordinated.planned
  refine ⟨quiet, planned.valid, fun id tunnel stored => planned.entry stored,
    (planned_summary clientPlan_plain planned).1,
    fun j client there busy => coordinated_progress coordinated there busy,
    coordinated_bound clientPlan_plain disciplined path, fun finished some id => ?_⟩
  rw [finished_created coordinated finished]
  constructor
  · rintro ⟨program, member, created⟩
    exact (all program member).2 ▸ created
  · intro listed
    obtain ⟨program, member⟩ := List.exists_mem_of_ne_nil programs fun none =>
      some (List.length_eq_zero_iff.mp (length.symm.trans (none ▸ rfl)))
    exact ⟨program, member, (all program member).2.symm ▸ listed⟩

end SessionOffload
