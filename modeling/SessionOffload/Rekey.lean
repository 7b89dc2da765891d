import SessionOffload.TunnelStreams
import SessionOffload.Lib.Patch

/-! Rekeying an IPsec decryption tunnel. The client names the security associations to create,
update or delete; the server takes the list it names for the list of the tunnel. -/
namespace SessionOffload

/-- The body of the loop in update_ipsec_dec_tunnel. -/
def securityAssociation (spi : Word32) (encryptionKey : Option (List Byte))
    (operation : Operation) : IPSecSAParams :=
  ⟨spi, encryptionKey.getD [], operation⟩

def decUpdate (tunnelId : Word64) (ipsecSAs : List IPSecSAParams) : IpTunnelRequest where
  tunnelId := tunnelId
  operation := operationUpdate
  matchCriteria := .empty
  nextAction := 0#32
  tunnel := some (.ipsecTunnel ⟨some (.ipsecDec ⟨0#32, aes256gcm64, ipsecSAs⟩)⟩)

def updateIpsecDecTunnel (tunnelId : Word64)
    (first second third : Option (Word32 × Option (List Byte) × Operation)) : IpTunnelRequest :=
  decUpdate tunnelId ([first, second, third].filterMap
    (Option.map fun (spi, key, operation) => securityAssociation spi key operation))

structure IpTunnelResponse where
  tunnelId : Word64
  ipTunnel : IpTunnelRequest
  tunnelCounters : TunnelCounters
  deriving DecidableEq, Repr

def getIpTunnel (tunnels : TunnelTable) (tunnelId : Word64) : Except Raised IpTunnelResponse :=
  match tunnels.get? tunnelId with
  | none => .error .keyError
  | some tunnel => .ok ⟨tunnelId, tunnel.tunnelProto, tunnel.counters⟩

def IpTunnelRequest.ipsecDec? (request : IpTunnelRequest) : Option IPSecDec :=
  match request.tunnel with
  | some (.ipsecTunnel ⟨some (.ipsecDec dec)⟩) => some dec
  | _ => none

/-- One call with updates of one tunnel. What a new tunnel would draw plays no part in it. -/
def rekeyCall (tunnelId : Word64) (updates : List (TunnelCounters × List IPSecSAParams)) :
    List TunnelCall :=
  updates.map (fun u => (u.1, decUpdate tunnelId u.2))

def rekey (tunnelId : Word64) (calls : List (List (TunnelCounters × List IPSecSAParams)))
    (tunnels : TunnelTable) : TunnelTable :=
  calls.foldl (fun t updates => (createIpTunnel (rekeyCall tunnelId updates) t).2) tunnels

theorem copyIpsec_dec (tunnel : Tunnel) (tunnelId : Word64) (ipsecSAs : List IPSecSAParams) :
    (tunnel.copyIpsec (decUpdate tunnelId ipsecSAs)).tunnelProto.ipsecDec? =
      some ⟨0#32, aes256gcm64, ipsecSAs⟩ :=
  rfl

theorem rekeyCall_get? (tunnelId : Word64) (updates : List (TunnelCounters × List IPSecSAParams))
    {tunnels : TunnelTable} {tunnel : Tunnel} (stored : tunnels.get? tunnelId = some tunnel) :
    (createIpTunnel (rekeyCall tunnelId updates) tunnels).2.get? tunnelId =
      some (updates.foldl (fun t u => t.copyIpsec (decUpdate tunnelId u.2)) tunnel) := by
  induction updates generalizing tunnels tunnel with
  | nil => exact (congrArg (·.get? tunnelId) (createIpTunnel_done tunnels)).trans stored
  | cons u updates ih =>
    have run : applyCall tunnels (u.1, decUpdate tunnelId u.2) =
        .ok (tunnels.set tunnelId (tunnel.copyIpsec (decUpdate tunnelId u.2))) := by
      have found : tunnels.get? (decUpdate tunnelId u.2).tunnelId = some tunnel := stored
      unfold applyCall applyRequest
      simp only [found]
      rfl
    have split : rekeyCall tunnelId (u :: updates) =
        (u.1, decUpdate tunnelId u.2) :: rekeyCall tunnelId updates := rfl
    rw [split, createIpTunnel_changed run, List.foldl_cons]
    exact ih (by rw [Dict.get?_set, if_pos rfl])

theorem rekey_get? (tunnelId : Word64)
    (calls : List (List (TunnelCounters × List IPSecSAParams))) {tunnels : TunnelTable}
    {tunnel : Tunnel} (stored : tunnels.get? tunnelId = some tunnel) :
    (rekey tunnelId calls tunnels).get? tunnelId =
      some (calls.flatten.foldl (fun t u => t.copyIpsec (decUpdate tunnelId u.2)) tunnel) := by
  induction calls generalizing tunnels tunnel with
  | nil => exact stored
  | cons updates calls ih =>
    rw [List.flatten_cons, List.foldl_append]
    exact ih (rekeyCall_get? tunnelId updates stored)

def namedOp (operation : Operation) : Patch.Op :=
  if operation = operationCreate then .create
  else if operation = operationUpdate then .update
  else if operation = operationDelete then .delete
  else .other

def IPSecSAParams.entry (sa : IPSecSAParams) : Patch.Entry Word32 (List Byte) :=
  ⟨sa.spi, sa.encryptionKey, namedOp sa.operation⟩

def IPSecSAParams.association (sa : IPSecSAParams) : Word32 × List Byte :=
  (sa.spi, sa.encryptionKey)

def rekeyedAssociations (dec : IPSecDec) (updates : List (List IPSecSAParams)) :
    List (Word32 × List Byte) :=
  (updates.flatten.map IPSecSAParams.entry).foldl Patch.apply
    (dec.ipsecSAs.map IPSecSAParams.association)

structure Rekeyed (dec : IPSecDec) (updates : List (List IPSecSAParams)) (left : IPSecDec) :
    Prop where
  associations : left.ipsecSAs.map IPSecSAParams.association = rekeyedAssociations dec updates
  tunnelType : left.tunnelType = dec.tunnelType
  encryptionType : left.encryptionType = dec.encryptionType

/-- The types are those of an update, which does not set them, and the last update restates
the associations that the earlier ones ask for. -/
structure LastRestates (dec : IPSecDec) (earlier : List (List IPSecSAParams))
    (last : List IPSecSAParams) : Prop where
  tunnelType : dec.tunnelType = 0#32
  encryptionType : dec.encryptionType = aes256gcm64
  restated : ∃ kept new, last.map IPSecSAParams.entry = kept ++ new ∧
    Patch.Restates (rekeyedAssociations dec earlier) kept new

theorem last_rekeyed (dec : IPSecDec) (earlier : List (List IPSecSAParams))
    (last : List IPSecSAParams) :
    Rekeyed dec (earlier ++ [last]) ⟨0#32, aes256gcm64, last⟩ ↔ LastRestates dec earlier last := by
  have split : rekeyedAssociations dec (earlier ++ [last]) =
      (last.map IPSecSAParams.entry).foldl Patch.apply (rekeyedAssociations dec earlier) := by
    unfold rekeyedAssociations
    rw [List.flatten_append, List.map_append, List.foldl_append, List.flatten_singleton]
  have pairs : last.map IPSecSAParams.association =
      (last.map IPSecSAParams.entry).map Patch.Entry.pair := by
    rw [List.map_map]
    rfl
  have exact := Patch.restates_iff (rekeyedAssociations dec earlier)
    (last.map IPSecSAParams.entry)
  constructor
  · intro rekeyed
    have associations := rekeyed.associations
    rw [pairs, split] at associations
    exact ⟨rekeyed.tunnelType.symm, rekeyed.encryptionType.symm, exact.mp associations⟩
  · intro restates
    refine ⟨?_, restates.tunnelType.symm, restates.encryptionType.symm⟩
    rw [pairs, split]
    exact exact.mpr restates.restated

/-- The security associations that a rekey asks for are the ones the tunnel has afterwards, with
its types as they were, if and only if nothing was asked for, or the last update restates them
all and the types are the default ones. The tunnel is the one that getIpTunnel returns. -/
theorem rekey_exact (tunnelId : Word64)
    (calls : List (List (TunnelCounters × List IPSecSAParams))) (tunnels : TunnelTable)
    (tunnel : Tunnel) (dec : IPSecDec) (stored : tunnels.get? tunnelId = some tunnel)
    (isDec : tunnel.tunnelProto.ipsecDec? = some dec) :
    ∃ left response, getIpTunnel (rekey tunnelId calls tunnels) tunnelId = .ok response ∧
      response.ipTunnel.ipsecDec? = some left ∧
      (Rekeyed dec (calls.flatten.map Prod.snd) left ↔ calls.flatten = [] ∨
        ∃ earlier last, calls.flatten.map Prod.snd = earlier ++ [last] ∧
          LastRestates dec earlier last) := by
  have after := rekey_get? tunnelId calls stored
  unfold getIpTunnel
  rw [after]
  rcases List.eq_nil_or_concat calls.flatten with none | ⟨earlier, last, split⟩
  · rw [none]
    exact ⟨dec, _, rfl, isDec, iff_of_true ⟨rfl, rfl, rfl⟩ (.inl rfl)⟩
  · rw [split, List.concat_eq_append, List.foldl_append, List.map_append]
    refine ⟨_, _, rfl, copyIpsec_dec _ tunnelId last.2, ?_⟩
    rw [List.map_singleton, last_rekeyed]
    constructor
    · exact fun restates => .inr ⟨_, _, rfl, restates⟩
    · rintro (impossible | ⟨others, final, same, restates⟩)
      · simp at impossible
      · obtain ⟨rfl, last⟩ := List.append_inj' same rfl
        cases List.singleton_inj.mp last
        exact restates

def oldKey : List Byte := List.replicate 64 97#8

def newKey : List Byte := List.replicate 64 98#8

def rekeyFlow : List (List (TunnelCounters × List IPSecSAParams)) :=
  [[(zeroTunnelCounters, [securityAssociation 1030#32 (some newKey) operationCreate])],
    [(zeroTunnelCounters, [securityAssociation 4589#32 none operationDelete])]]

example : updateIpsecDecTunnel 10003#64 none (some (1030#32, some newKey, operationCreate)) none =
    decUpdate 10003#64 [securityAssociation 1030#32 (some newKey) operationCreate] := rfl

def rekeyTable : TunnelTable :=
  (createIpTunnel [(zeroTunnelCounters, decRequest operationCreate oldKey)] .empty).2

def rekeyTunnel : Tunnel :=
  ⟨decRequest operationCreate oldKey, 10003#64, .ipsecDecryption, zeroTunnelCounters⟩

def rekeyDec : IPSecDec := ⟨1#32, aes256gcm64, [⟨4589#32, oldKey, operationCreate⟩]⟩

theorem rekeyFlow_exact : ∃ left response,
    getIpTunnel (rekey 10003#64 rekeyFlow rekeyTable) 10003#64 = .ok response ∧
    response.ipTunnel.ipsecDec? = some left ∧
    (Rekeyed rekeyDec (rekeyFlow.flatten.map Prod.snd) left ↔ rekeyFlow.flatten = [] ∨
      ∃ earlier last, rekeyFlow.flatten.map Prod.snd = earlier ++ [last] ∧
        LastRestates rekeyDec earlier last) :=
  rekey_exact 10003#64 rekeyFlow rekeyTable rekeyTunnel rekeyDec rfl rfl

/-- The new association goes when the old one is deleted, and only the delete is left; the
tunnel type goes as well. -/
theorem rekeyFlow_loses : ∃ left response,
    getIpTunnel (rekey 10003#64 rekeyFlow rekeyTable) 10003#64 = .ok response ∧
    response.ipTunnel.ipsecDec? = some left ∧
    rekeyedAssociations rekeyDec (rekeyFlow.flatten.map Prod.snd) = [(1030#32, newKey)] ∧
    left.ipsecSAs = [⟨4589#32, [], operationDelete⟩] ∧ left.tunnelType ≠ rekeyDec.tunnelType ∧
    ¬ Rekeyed rekeyDec (rekeyFlow.flatten.map Prod.snd) left := by
  refine ⟨_, _, rfl, rfl, by decide, rfl, by decide, fun rekeyed => ?_⟩
  exact absurd rekeyed.tunnelType (by decide)

end SessionOffload
