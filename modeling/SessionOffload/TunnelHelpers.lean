import SessionOffload.MatchEncoding
import SessionOffload.TunnelChecks
import SessionOffload.TunnelReads

/-! The requests that tunnels_helper.py builds: when a helper returns one, when the server takes
it, and that it says everything that the helper was called with but what its Match loses. -/
namespace SessionOffload
open Inet Check

def nextActionForward : NextAction := 1#32
def nextActionRecirculate : NextAction := 2#32

/-- `"%064x" % random.randrange(2**256)`, encoded. -/
def randomKey (drawn : Fin (2 ^ 256)) : List Byte :=
  (List.leftpad 64 '0' (Nat.toDigits 16 drawn)).map fun c => BitVec.ofNat 8 c.toNat

/-- `text.encode()` -/
def encode (text : String) : List Byte := text.toByteArray.data.toList.map UInt8.toBitVec

def ipv4Word (order : ByteOrder) (ipv4 : String) : Except MatchRaised Word32 := do
  let address ← ipv4ToInt order ipv4
  unsigned 32 address

def createIpsecEncTunnel (order : ByteOrder) (tunnelId : Int) (m : Match) (spi : Int)
    (tunnelType : IPSecTunnelType) (tunnelSourceIp tunnelDestinationIp : String)
    (encType : EncType) (nextAction : NextAction) (drawn : Fin (2 ^ 256)) :
    Except MatchRaised IpTunnelRequest := do
  let matchCriteria ← assignMatchToObject order .empty m
  let tunnelId ← unsigned 64 tunnelId
  let spi ← unsigned 32 spi
  let sourceIp ← ipv4Word order tunnelSourceIp
  let destinationIp ← ipv4Word order tunnelDestinationIp
  .ok
    { tunnelId := tunnelId
      operation := operationCreate
      matchCriteria := matchCriteria
      nextAction := nextAction
      tunnel := some (.ipsecTunnel ⟨some (.ipsecEnc
        { tunnelType := tunnelType
          encryptionType := encType
          ipsecSA := some ⟨spi, randomKey drawn, operationNone⟩
          tunnelIps := some (.ipv4Tunnel ⟨sourceIp, destinationIp⟩) })⟩) }

def updateIpsecEncTunnel (tunnelId spi : Int) (drawn : Fin (2 ^ 256)) :
    Except MatchRaised IpTunnelRequest := do
  let tunnelId ← unsigned 64 tunnelId
  let spi ← unsigned 32 spi
  .ok
    { tunnelId := tunnelId
      operation := operationUpdate
      matchCriteria := .empty
      nextAction := 0#32
      tunnel := some (.ipsecTunnel ⟨some (.ipsecEnc
        { IPSecEnc.empty with ipsecSA := some ⟨spi, randomKey drawn, operationNone⟩ })⟩) }

def createIpsecDecTunnel (order : ByteOrder) (tunnelId : Int) (m : Match) (spi : Int)
    (key : List Byte) (tunnelType : IPSecTunnelType) (encType : EncType)
    (nextAction : NextAction) : Except MatchRaised IpTunnelRequest := do
  let matchCriteria ← assignMatchToObject order .empty m
  let tunnelId ← unsigned 64 tunnelId
  let spi ← unsigned 32 spi
  .ok
    { tunnelId := tunnelId
      operation := operationCreate
      matchCriteria := matchCriteria
      nextAction := nextAction
      tunnel := some (.ipsecTunnel ⟨some (.ipsecDec
        { tunnelType := tunnelType
          encryptionType := encType
          ipsecSAs := [⟨spi, key, operationCreate⟩] })⟩) }

/-- `bytes.fromhex('10203040')` with its class and type. -/
def exampleOption : GENEVEOption where
  optionClass := 0x0104#32
  type := 0x11#32
  length := 1#32
  data := [0x10#8, 0x20#8, 0x30#8, 0x40#8]

def createGeneveEncap (order : ByteOrder) (tunnelId : Int) (m : Match)
    (geneveSourceIp geneveDestIp geneveSourceMac geneveDestMac : String) (geneveVni : Int)
    (nextAction : NextAction) : Except MatchRaised IpTunnelRequest := do
  let tunnelId ← unsigned 64 tunnelId
  let matchCriteria ← assignMatchToObject order .empty m
  let sourceIp ← ipv4Word order geneveSourceIp
  let destinationIp ← ipv4Word order geneveDestIp
  let vni ← unsigned 32 geneveVni
  .ok
    { tunnelId := tunnelId
      operation := operationCreate
      matchCriteria := matchCriteria
      nextAction := nextAction
      tunnel := some (.geneve ⟨some (.geneveEncap
        { ip := some (.outerIpv4Pair ⟨sourceIp, destinationIp⟩)
          innerMacPair := some
            { sourceMac := encode geneveSourceMac
              destinationMac := encode geneveDestMac }
          optionLength := 4#32
          controlPacket := false
          criticalOptionPresent := false
          vni := vni
          protocolType := 0#32
          geneveOption := [exampleOption] })⟩) }

def createGeneveDecap (order : ByteOrder) (tunnelId : Int) (m : Match) (nextAction : NextAction) :
    Except MatchRaised IpTunnelRequest := do
  let matchCriteria ← assignMatchToObject order .empty m
  let tunnelId ← unsigned 64 tunnelId
  .ok
    { tunnelId := tunnelId
      operation := operationCreate
      matchCriteria := matchCriteria
      nextAction := nextAction
      tunnel := some (.geneve ⟨some .geneveDecap⟩) }

inductive HelperCall where
  | ipsecEnc (tunnelId : Int) (m : Match) (spi : Int) (tunnelType : IPSecTunnelType)
      (tunnelSourceIp tunnelDestinationIp : String) (encType : EncType) (nextAction : NextAction)
      (drawn : Fin (2 ^ 256))
  | ipsecDec (tunnelId : Int) (m : Match) (spi : Int) (key : List Byte)
      (tunnelType : IPSecTunnelType) (encType : EncType) (nextAction : NextAction)
  | geneveEncap (tunnelId : Int) (m : Match)
      (geneveSourceIp geneveDestIp geneveSourceMac geneveDestMac : String) (geneveVni : Int)
      (nextAction : NextAction)
  | geneveDecap (tunnelId : Int) (m : Match) (nextAction : NextAction)

namespace HelperCall

def request (order : ByteOrder) : HelperCall → Except MatchRaised IpTunnelRequest
  | ipsecEnc tunnelId m spi tunnelType source destination encType nextAction drawn =>
    createIpsecEncTunnel order tunnelId m spi tunnelType source destination encType nextAction
      drawn
  | ipsecDec tunnelId m spi key tunnelType encType nextAction =>
    createIpsecDecTunnel order tunnelId m spi key tunnelType encType nextAction
  | geneveEncap tunnelId m sourceIp destIp sourceMac destMac vni nextAction =>
    createGeneveEncap order tunnelId m sourceIp destIp sourceMac destMac vni nextAction
  | geneveDecap tunnelId m nextAction => createGeneveDecap order tunnelId m nextAction

def tunnelId : HelperCall → Int
  | ipsecEnc tunnelId _ _ _ _ _ _ _ _ => tunnelId
  | ipsecDec tunnelId _ _ _ _ _ _ => tunnelId
  | geneveEncap tunnelId _ _ _ _ _ _ _ => tunnelId
  | geneveDecap tunnelId _ _ => tunnelId

def criteria : HelperCall → Match
  | ipsecEnc _ m _ _ _ _ _ _ _ => m
  | ipsecDec _ m _ _ _ _ _ => m
  | geneveEncap _ m _ _ _ _ _ _ => m
  | geneveDecap _ m _ => m

def withMatch (n : Match) : HelperCall → HelperCall
  | ipsecEnc tunnelId _ spi tunnelType source destination encType nextAction drawn =>
    ipsecEnc tunnelId n spi tunnelType source destination encType nextAction drawn
  | ipsecDec tunnelId _ spi key tunnelType encType nextAction =>
    ipsecDec tunnelId n spi key tunnelType encType nextAction
  | geneveEncap tunnelId _ sourceIp destIp sourceMac destMac vni nextAction =>
    geneveEncap tunnelId n sourceIp destIp sourceMac destMac vni nextAction
  | geneveDecap tunnelId _ nextAction => geneveDecap tunnelId n nextAction

def Storable : HelperCall → Prop
  | ipsecEnc tunnelId _ spi _ source destination _ _ _ =>
    Fits 64 tunnelId ∧ Fits 32 spi ∧ (inetPton source).isSome ∧ (inetPton destination).isSome
  | ipsecDec tunnelId _ spi _ _ _ _ => Fits 64 tunnelId ∧ Fits 32 spi
  | geneveEncap tunnelId _ sourceIp destIp _ _ vni _ =>
    Fits 64 tunnelId ∧ (inetPton sourceIp).isSome ∧ (inetPton destIp).isSome ∧ Fits 32 vni
  | geneveDecap tunnelId _ _ => Fits 64 tunnelId

def Valid : HelperCall → Prop
  | ipsecEnc _ _ spi _ _ _ encType _ _ => encType ∈ supportedIpsecEnc ∧ spi ≠ 0
  | ipsecDec _ _ spi key _ encType _ =>
    encType ∈ supportedIpsecEnc ∧ key.length = 64 ∧ spi ≠ 0
  | geneveEncap _ _ _ _ sourceMac destMac vni _ =>
    (encode sourceMac).length = 12 ∧ (encode destMac).length = 12 ∧ vni < 2 ^ 24
  | geneveDecap _ _ _ => True

def left (call : HelperCall) : HelperCall × Given :=
  (call.withMatch .empty, call.criteria.given.written)

def Proper (order : ByteOrder) (call : HelperCall) : Prop := call.criteria.given.Proper order

end HelperCall

section Key

def hexValue (digit : Byte) : Nat := if digit.toNat < 58 then digit.toNat - 48 else digit.toNat - 87

def keyNumber (key : List Byte) : Nat := key.foldl (fun n digit => 16 * n + hexValue digit) 0

def digitByte (c : Char) : Byte := BitVec.ofNat 8 c.toNat

theorem hexValue_digitChar (d : Fin 16) : hexValue (digitByte (Nat.digitChar d)) = d := by
  revert d
  decide

theorem keyNumber_toDigits (n : Nat) : keyNumber ((Nat.toDigits 16 n).map digitByte) = n := by
  induction n using Nat.strongRecOn with
  | _ n ih =>
    rw [Nat.toDigits_eq_if (by decide)]
    split
    · next small =>
      have last := hexValue_digitChar ⟨n, small⟩
      rw [List.map_singleton, keyNumber, List.foldl_cons, List.foldl_nil, last, Nat.mul_zero,
        Nat.zero_add]
    · next large =>
      have last := hexValue_digitChar ⟨n % 16, Nat.mod_lt n (by decide)⟩
      have first := ih (n / 16) (by omega)
      rw [keyNumber] at first ⊢
      rw [List.map_append, List.foldl_append, first, List.map_singleton, List.foldl_cons,
        List.foldl_nil, last]
      exact Nat.div_add_mod n 16

theorem keyNumber_zeros (k : Nat) (digits : List Byte) :
    keyNumber (List.replicate k (digitByte '0') ++ digits) = keyNumber digits := by
  induction k with
  | zero => rfl
  | succ k ih =>
    rw [keyNumber] at ih ⊢
    rw [List.replicate_succ, List.cons_append, List.foldl_cons]
    exact ih

theorem randomKey_length (drawn : Fin (2 ^ 256)) : (randomKey drawn).length = 64 := by
  have digits : (Nat.toDigits 16 drawn).length ≤ 64 := by
    rw [Nat.length_toDigits_le_iff (by decide) (by decide)]
    exact drawn.isLt
  rw [randomKey, List.length_map, List.length_leftpad]
  exact Nat.max_eq_left digits

theorem keyNumber_randomKey (drawn : Fin (2 ^ 256)) : keyNumber (randomKey drawn) = drawn := by
  rw [randomKey, List.leftpad, List.map_append, List.map_replicate]
  exact (keyNumber_zeros _ _).trans (keyNumber_toDigits drawn)

theorem randomKey_inj {drawn drawn' : Fin (2 ^ 256)} (same : randomKey drawn = randomKey drawn') :
    drawn = drawn' := by
  apply Fin.ext
  rw [← keyNumber_randomKey drawn, ← keyNumber_randomKey drawn', same]

end Key

section Words
variable {order : ByteOrder}

theorem encode_inj {text text' : String} (same : encode text = encode text') : text = text' := by
  have bytes : text.toByteArray.data.toList = text'.toByteArray.data.toList :=
    List.map_injective_iff.mpr (fun _ _ => UInt8.toBitVec_inj.mp) same
  exact String.toByteArray_inj.mp (ByteArray.ext (Array.toList_inj.mp bytes))

theorem unsigned_value {w : Nat} {v : Int} {word : BitVec w} (stored : unsigned w v = .ok word) :
    v = word.toNat := by
  have fits : Fits w v := unsigned_answers.mp ⟨word, stored⟩
  rw [unsigned_ok fits, Except.ok.injEq] at stored
  rw [← stored, ofInt_toNat fits]

theorem unsigned_inj {w : Nat} {v v' : Int} {word : BitVec w} (stored : unsigned w v = .ok word)
    (stored' : unsigned w v' = .ok word) : v = v' :=
  (unsigned_value stored).trans (unsigned_value stored').symm

theorem ipv4Word_value {text : String} {word : Word32} (stored : ipv4Word order text = .ok word) :
    ipv4ToInt order text = .ok word.toNat := by
  unfold ipv4Word at stored
  cases read : ipv4ToInt order text with
  | error e =>
    rw [read] at stored
    cases stored
  | ok v =>
    rw [read] at stored
    rw [unsigned_value stored]

theorem ipv4Word_inj {text text' : String} {word : Word32}
    (stored : ipv4Word order text = .ok word) (stored' : ipv4Word order text' = .ok word) :
    text = text' :=
  ipv4ToInt_inj (ipv4Word_value stored) (ipv4Word_value stored')

theorem ipv4Word_answers {text : String} :
    (∃ word, ipv4Word order text = .ok word) ↔ (inetPton text).isSome := by
  cases parsed : inetPton text with
  | none =>
    have read : ipv4ToInt order text = .error .osError := by simp only [ipv4ToInt, parsed]
    refine iff_of_false ?_ Bool.false_ne_true
    rintro ⟨word, stored⟩
    rw [ipv4Word, read] at stored
    cases stored
  | some bytes =>
    have read : ipv4ToInt order text = .ok (intFromBytes order bytes) := by
      simp only [ipv4ToInt, parsed]
    refine iff_of_true ⟨BitVec.ofInt 32 (intFromBytes order bytes), ?_⟩ rfl
    rw [ipv4Word, read, ok_then, unsigned_ok (ipv4ToInt_fits read)]

end Words

section Requests
variable {order : ByteOrder} {call : HelperCall} {request : IpTunnelRequest}

theorem answers_last {α β : Type} {first : Except MatchRaised α} {p : Prop} (f : α → β)
    (here : (∃ a, first = .ok a) ↔ p) : (∃ b, (first >>= fun a => .ok (f a)) = .ok b) ↔ p :=
  (answers_then here fun a => iff_of_true ⟨f a, rfl⟩ trivial).trans (and_iff_left trivial)

theorem helper_answers (order : ByteOrder) (call : HelperCall) :
    (∃ request, call.request order = .ok request) ↔
      call.criteria.given.Assignable ∧ call.Storable := by
  cases call with
  | ipsecEnc tunnelId m spi tunnelType source destination encType nextAction drawn =>
    exact answers_then (assign_answers order .empty m) fun _ =>
      answers_then unsigned_answers fun _ => answers_then unsigned_answers fun _ =>
      answers_then ipv4Word_answers fun _ => answers_last _ ipv4Word_answers
  | ipsecDec tunnelId m spi key tunnelType encType nextAction =>
    exact answers_then (assign_answers order .empty m) fun _ =>
      answers_then unsigned_answers fun _ => answers_last _ unsigned_answers
  | geneveEncap tunnelId m sourceIp destIp sourceMac destMac vni nextAction =>
    have steps : (∃ request, createGeneveEncap order tunnelId m sourceIp destIp sourceMac destMac
        vni nextAction = .ok request) ↔ Fits 64 tunnelId ∧ m.given.Assignable ∧
          (inetPton sourceIp).isSome ∧ (inetPton destIp).isSome ∧ Fits 32 vni :=
      answers_then unsigned_answers fun _ => answers_then (assign_answers order .empty m) fun _ =>
      answers_then ipv4Word_answers fun _ => answers_then ipv4Word_answers fun _ =>
      answers_last _ unsigned_answers
    exact steps.trans and_left_comm
  | geneveDecap tunnelId m nextAction =>
    exact answers_then (assign_answers order .empty m) fun _ => answers_last _ unsigned_answers

theorem stored_then {α β : Type} {first : Except MatchRaised α} {later : α → Except MatchRaised β}
    {b : β} (run : (first >>= later) = .ok b) : ∃ a, first = .ok a ∧ later a = .ok b := by
  cases first with
  | error e => cases run
  | ok a => exact ⟨a, rfl, run⟩

inductive Built (order : ByteOrder) : HelperCall → IpTunnelRequest → Prop where
  | ipsecEnc {tunnelId spi : Int} {m : Match} {tunnelType : IPSecTunnelType}
      {source destination : String} {encType : EncType} {nextAction : NextAction}
      {drawn : Fin (2 ^ 256)} {c : MatchCriteria} {idWord : Word64}
      {spiWord sourceWord destinationWord : Word32}
      (criteria : assignMatchToObject order .empty m = .ok c)
      (id : unsigned 64 tunnelId = .ok idWord) (spiStored : unsigned 32 spi = .ok spiWord)
      (sourceStored : ipv4Word order source = .ok sourceWord)
      (destinationStored : ipv4Word order destination = .ok destinationWord) :
      Built order
        (.ipsecEnc tunnelId m spi tunnelType source destination encType nextAction drawn)
        ⟨idWord, operationCreate, c, nextAction, some (.ipsecTunnel ⟨some (.ipsecEnc ⟨tunnelType,
          encType, some ⟨spiWord, randomKey drawn, operationNone⟩,
          some (.ipv4Tunnel ⟨sourceWord, destinationWord⟩)⟩)⟩)⟩
  | ipsecDec {tunnelId spi : Int} {m : Match} {key : List Byte} {tunnelType : IPSecTunnelType}
      {encType : EncType} {nextAction : NextAction} {c : MatchCriteria} {idWord : Word64}
      {spiWord : Word32} (criteria : assignMatchToObject order .empty m = .ok c)
      (id : unsigned 64 tunnelId = .ok idWord) (spiStored : unsigned 32 spi = .ok spiWord) :
      Built order (.ipsecDec tunnelId m spi key tunnelType encType nextAction)
        ⟨idWord, operationCreate, c, nextAction, some (.ipsecTunnel ⟨some (.ipsecDec ⟨tunnelType,
          encType, [⟨spiWord, key, operationCreate⟩]⟩)⟩)⟩
  | geneveEncap {tunnelId vni : Int} {m : Match} {sourceIp destIp sourceMac destMac : String}
      {nextAction : NextAction} {c : MatchCriteria} {idWord : Word64}
      {sourceWord destWord vniWord : Word32}
      (criteria : assignMatchToObject order .empty m = .ok c)
      (id : unsigned 64 tunnelId = .ok idWord)
      (sourceStored : ipv4Word order sourceIp = .ok sourceWord)
      (destStored : ipv4Word order destIp = .ok destWord)
      (vniStored : unsigned 32 vni = .ok vniWord) :
      Built order (.geneveEncap tunnelId m sourceIp destIp sourceMac destMac vni nextAction)
        ⟨idWord, operationCreate, c, nextAction, some (.geneve ⟨some (.geneveEncap
          ⟨some (.outerIpv4Pair ⟨sourceWord, destWord⟩), some ⟨encode destMac, encode sourceMac⟩,
            4#32, false, false, vniWord, 0#32, [exampleOption]⟩)⟩)⟩
  | geneveDecap {tunnelId : Int} {m : Match} {nextAction : NextAction} {c : MatchCriteria}
      {idWord : Word64} (criteria : assignMatchToObject order .empty m = .ok c)
      (id : unsigned 64 tunnelId = .ok idWord) :
      Built order (.geneveDecap tunnelId m nextAction)
        ⟨idWord, operationCreate, c, nextAction, some (.geneve ⟨some .geneveDecap⟩)⟩

theorem request_built (run : call.request order = .ok request) : Built order call request := by
  cases call with
  | ipsecEnc tunnelId m spi tunnelType source destination encType nextAction drawn =>
    obtain ⟨c, criteria, run⟩ := stored_then run
    obtain ⟨idWord, id, run⟩ := stored_then run
    obtain ⟨spiWord, spi, run⟩ := stored_then run
    obtain ⟨sourceWord, source, run⟩ := stored_then run
    obtain ⟨destinationWord, destination, run⟩ := stored_then run
    cases run
    exact .ipsecEnc criteria id spi source destination
  | ipsecDec tunnelId m spi key tunnelType encType nextAction =>
    obtain ⟨c, criteria, run⟩ := stored_then run
    obtain ⟨idWord, id, run⟩ := stored_then run
    obtain ⟨spiWord, spi, run⟩ := stored_then run
    cases run
    exact .ipsecDec criteria id spi
  | geneveEncap tunnelId m sourceIp destIp sourceMac destMac vni nextAction =>
    obtain ⟨idWord, id, run⟩ := stored_then run
    obtain ⟨c, criteria, run⟩ := stored_then run
    obtain ⟨sourceWord, source, run⟩ := stored_then run
    obtain ⟨destWord, dest, run⟩ := stored_then run
    obtain ⟨vniWord, vni, run⟩ := stored_then run
    cases run
    exact .geneveEncap criteria id source dest vni
  | geneveDecap tunnelId m nextAction =>
    obtain ⟨c, criteria, run⟩ := stored_then run
    obtain ⟨idWord, id, run⟩ := stored_then run
    cases run
    exact .geneveDecap criteria id

theorem word_zero_iff {w : Nat} {v : Int} {word : BitVec w} (stored : unsigned w v = .ok word) :
    word ≠ 0#w ↔ v ≠ 0 := by
  have value := unsigned_value stored
  constructor
  · rintro nonzero rfl
    exact nonzero (BitVec.eq_of_toNat_eq (by simpa using value.symm))
  · rintro nonzero rfl
    exact nonzero (by simpa using value)

theorem enc_valid {enc : IPSecEnc} {sa : IPSecSAParams} (set : enc.ipsecSA = some sa)
    (sized : sa.encryptionKey.length = 64) :
    AcceptedIpsec (.ipsecEnc enc) ↔ enc.encryptionType ∈ supportedIpsecEnc ∧ sa.spi ≠ 0#32 := by
  have keyed : KeySized sa := fun _ _ => sized
  rw [ipsec_accepted, IPSecMode.ipsecSAs, set]
  simp [IPSecMode.encryptionType, keyed]

theorem dec_valid {tunnelType : IPSecTunnelType} {encType : EncType} {spi : Word32}
    {key : List Byte} :
    AcceptedIpsec (.ipsecDec ⟨tunnelType, encType, [⟨spi, key, operationCreate⟩]⟩) ↔
      encType ∈ supportedIpsecEnc ∧ key.length = 64 ∧ spi ≠ 0#32 := by
  have create : operationCreate ≠ operationDelete := by decide
  rw [ipsec_accepted]
  simp only [IPSecMode.encryptionType, IPSecMode.ipsecSAs, List.forall_mem_singleton,
    List.head?_cons, Option.mem_def, Option.some.injEq, forall_eq', KeySized]
  refine and_congr_right fun _ => ⟨fun ⟨sized, used⟩ => ⟨sized used create, used⟩, ?_⟩
  exact fun ⟨sized, used⟩ => ⟨fun _ _ => sized, used⟩

theorem built_valid (built : Built order call request) :
    (∃ tunnelType, checkTunnelValidity request = .ok tunnelType) ↔ call.Valid := by
  cases built with
  | @ipsecEnc _ _ _ _ _ _ _ _ drawn _ _ _ _ _ _ _ spiStored =>
    refine Iff.trans (enc_valid rfl (randomKey_length drawn)) ?_
    exact and_congr_right fun _ => word_zero_iff spiStored
  | ipsecDec _ _ spiStored =>
    refine Iff.trans dec_valid ?_
    exact and_congr_right fun _ => and_congr_right fun _ => word_zero_iff spiStored
  | @geneveEncap _ vni _ _ _ sourceMac destMac _ _ _ sourceWord destWord vniWord _ _ _ _ stored =>
    have check := encap_accepted ⟨some (.outerIpv4Pair ⟨sourceWord, destWord⟩),
      some ⟨encode destMac, encode sourceMac⟩, 4#32, false, false, vniWord, 0#32, [exampleOption]⟩
    have value := unsigned_value stored
    have option : OptionAccepted exampleOption := (option_accepted exampleOption).mp rfl
    rw [HelperCall.Valid]
    constructor
    · rintro ⟨tunnelType, accepted⟩
      have accepted := check.mp (then_ok.mp accepted).1
      have small : vniWord.toNat < 2 ^ 24 := accepted.vni
      exact ⟨accepted.macs.1, accepted.macs.2, by omega⟩
    · rintro ⟨source, dest, small⟩
      have vniSmall : vniWord.toNat < 2 ^ 24 := by omega
      have accepted := check.mpr ⟨⟨source, dest⟩, vniSmall, ⟨_, rfl, trivial⟩,
        List.forall_mem_singleton.mpr option⟩
      exact ⟨.geneveEncap, then_ok.mpr ⟨accepted, rfl⟩⟩
  | geneveDecap => exact iff_of_true ⟨.geneveDecap, rfl⟩ trivial

theorem built_id (built : Built order call request) : call.tunnelId = request.tunnelId.toNat := by
  cases built with
  | ipsecEnc _ id => exact unsigned_value id
  | ipsecDec _ id => exact unsigned_value id
  | geneveEncap _ id => exact unsigned_value id
  | geneveDecap _ id => exact unsigned_value id

theorem built_create (built : Built order call request) : request.operation = operationCreate := by
  cases built <;> rfl

theorem written_same {m n : Match} {c : MatchCriteria} (proper : m.given.Proper order)
    (proper' : n.given.Proper order) (built : assignMatchToObject order .empty m = .ok c)
    (built' : assignMatchToObject order .empty n = .ok c) : m.given.written = n.given.written := by
  rw [assign_written proper, Except.ok.injEq] at built
  rw [assign_written proper', Except.ok.injEq] at built'
  exact (criteria_same proper proper').mp (built.trans built'.symm)

theorem built_left {other : HelperCall} {request' : IpTunnelRequest}
    (proper : call.Proper order) (proper' : other.Proper order)
    (built : Built order call request) (built' : Built order other request')
    (same : request' = request) : other.left = call.left := by
  cases built with
  | ipsecEnc criteria id spi source destination =>
    cases built' with
    | ipsecEnc criteria' id' spi' source' destination' =>
      simp only [IpTunnelRequest.mk.injEq, Option.some.injEq, TunnelOneof.ipsecTunnel.injEq,
        IPSecTunnel.mk.injEq, IPSecMode.ipsecEnc.injEq, IPSecEnc.mk.injEq, IPSecSAParams.mk.injEq,
        TunnelIps.ipv4Tunnel.injEq, IPV4Pair.mk.injEq] at same
      obtain ⟨rfl, _, rfl, rfl, rfl, rfl, ⟨rfl, key, _⟩, rfl, rfl⟩ := same
      rw [HelperCall.left, HelperCall.left, HelperCall.withMatch, HelperCall.withMatch,
        unsigned_inj id' id, unsigned_inj spi' spi, ipv4Word_inj source' source,
        ipv4Word_inj destination' destination, randomKey_inj key]
      exact congrArg _ (written_same proper' proper criteria' criteria)
    | _ => cases same
  | ipsecDec criteria id spi =>
    cases built' with
    | ipsecDec criteria' id' spi' =>
      cases same
      rw [HelperCall.left, HelperCall.left, HelperCall.withMatch, HelperCall.withMatch,
        unsigned_inj id' id, unsigned_inj spi' spi]
      exact congrArg _ (written_same proper' proper criteria' criteria)
    | _ => cases same
  | geneveEncap criteria id source dest vni =>
    cases built' with
    | geneveEncap criteria' id' source' dest' vni' =>
      simp only [IpTunnelRequest.mk.injEq, Option.some.injEq, TunnelOneof.geneve.injEq,
        GENEVE.mk.injEq, EncapDecap.geneveEncap.injEq, GENEVEEncap.mk.injEq,
        OuterIp.outerIpv4Pair.injEq, IPV4Pair.mk.injEq, MacPair.mk.injEq] at same
      obtain ⟨rfl, _, rfl, rfl, ⟨rfl, rfl⟩, ⟨destMac, sourceMac⟩, _, _, _, rfl, _⟩ := same
      rw [HelperCall.left, HelperCall.left, HelperCall.withMatch, HelperCall.withMatch,
        unsigned_inj id' id, unsigned_inj vni' vni, ipv4Word_inj source' source,
        ipv4Word_inj dest' dest, encode_inj destMac, encode_inj sourceMac]
      exact congrArg _ (written_same proper' proper criteria' criteria)
    | _ => cases same
  | geneveDecap criteria id =>
    cases built' with
    | geneveDecap criteria' id' =>
      cases same
      rw [HelperCall.left, HelperCall.left, HelperCall.withMatch, HelperCall.withMatch,
        unsigned_inj id' id]
      exact congrArg _ (written_same proper' proper criteria' criteria)
    | _ => cases same

theorem withMatch_twice (call : HelperCall) (m n : Match) :
    (call.withMatch m).withMatch n = call.withMatch n := by
  cases call <;> rfl

theorem withMatch_criteria (call : HelperCall) : call.withMatch call.criteria = call := by
  cases call <;> rfl

/-- A Match has its effect through its criteria only. -/
theorem request_withMatch (call : HelperCall) {m : Match}
    (same : assignMatchToObject order .empty m = assignMatchToObject order .empty call.criteria) :
    (call.withMatch m).request order = call.request order := by
  cases call with
  | ipsecEnc =>
    simp only [HelperCall.withMatch, HelperCall.request, createIpsecEncTunnel, same,
      HelperCall.criteria]
  | ipsecDec =>
    simp only [HelperCall.withMatch, HelperCall.request, createIpsecDecTunnel, same,
      HelperCall.criteria]
  | geneveEncap =>
    simp only [HelperCall.withMatch, HelperCall.request, createGeneveEncap, same,
      HelperCall.criteria]
  | geneveDecap =>
    simp only [HelperCall.withMatch, HelperCall.request, createGeneveDecap, same,
      HelperCall.criteria]

theorem left_request {other : HelperCall} (proper : call.Proper order)
    (proper' : other.Proper order) (same : other.left = call.left) :
    other.request order = call.request order := by
  obtain ⟨arguments, written⟩ := Prod.mk.inj same
  have rewritten : other = call.withMatch other.criteria := by
    rw [← withMatch_twice call .empty, ← arguments, withMatch_twice, withMatch_criteria]
  have criteria : assignMatchToObject order .empty other.criteria =
      assignMatchToObject order .empty call.criteria := by
    rw [assign_written proper, assign_written proper', written]
  rw [rewritten]
  exact request_withMatch call criteria

theorem proper_assignable (proper : call.Proper order) : call.criteria.given.Assignable :=
  (assign_answers order .empty call.criteria).mp ⟨_, assign_written proper⟩

end Requests

structure ReadBack (call : HelperCall) (request : IpTunnelRequest) (counters : TunnelCounters)
    (tunnels : TunnelTable) : Prop where
  taken : (∃ changed, applyRequest counters request tunnels = .ok changed) ↔ call.Valid
  read : ∀ changed, applyRequest counters request tunnels = .ok changed →
    getIpTunnel changed request.tunnelId = .ok ⟨request.tunnelId, request, counters⟩

theorem readBack_of_built {order : ByteOrder} {call : HelperCall} {request : IpTunnelRequest}
    (built : Built order call request) (counters : TunnelCounters) (tunnels : TunnelTable) :
    ReadBack call request counters tunnels := by
  have create := built_create built
  have valid := built_valid built
  cases check : checkTunnelValidity request with
  | error e =>
    have raised : applyRequest counters request tunnels = .error e := by
      rw [applyRequest, if_pos create, check]
      rfl
    rw [check] at valid
    refine ⟨?_, fun changed run => ?_⟩
    · rw [raised, ← valid]
      refine iff_of_false ?_ ?_
      · rintro ⟨_, run⟩
        cases run
      · rintro ⟨_, run⟩
        cases run
    · rw [raised] at run
      cases run
  | ok tunnelType =>
    have stored : applyRequest counters request tunnels = .ok
        (tunnels.set request.tunnelId ⟨request, request.tunnelId, tunnelType, counters⟩) := by
      rw [applyRequest, if_pos create, check]
      rfl
    refine ⟨iff_of_true ⟨_, stored⟩ (valid.mp ⟨_, check⟩), fun changed run => ?_⟩
    rw [stored] at run
    cases run
    simp only [getIpTunnel, Dict.get?_set, if_pos]

/-- A helper builds a request whenever its arguments can be stored. The server takes it exactly
when they are valid, and what getIpTunnel returns then is the request of no other call, up to
what a Match loses. -/
theorem helper_round_trip (order : ByteOrder) (call : HelperCall) (proper : call.Proper order) :
    ((∃ request, call.request order = .ok request) ↔ call.Storable) ∧
    ∀ request, call.request order = .ok request →
      call.tunnelId = request.tunnelId.toNat ∧
      (∀ counters tunnels, ReadBack call request counters tunnels) ∧
      ∀ other : HelperCall, other.Proper order →
        (other.request order = .ok request ↔ other.left = call.left) := by
  refine ⟨?_, fun request run => ?_⟩
  · rw [helper_answers]
    exact and_iff_right (proper_assignable proper)
  · have built := request_built run
    refine ⟨built_id built, readBack_of_built built, fun other proper' => ⟨fun run' => ?_, ?_⟩⟩
    · exact built_left proper proper' built (request_built run') rfl
    · exact fun same => (left_request proper proper' same).trans run

def chainedEnc : HelperCall :=
  .ipsecEnc 20003 (chainedMatch 20002 920) 45888 transport "13.0.0.2" "13.0.0.1" aes256gcm64
    nextActionForward ⟨7, by decide⟩

theorem chainedEnc_round_trip : ∃ request, chainedEnc.request .little = .ok request ∧
    (∀ counters tunnels, ReadBack chainedEnc request counters tunnels) ∧
    ∀ other : HelperCall, other.Proper .little →
      (other.request .little = .ok request ↔ other.left = chainedEnc.left) := by
  have trip := helper_round_trip .little chainedEnc (chainedMatch_proper (by decide) (by decide))
  obtain ⟨request, built⟩ := trip.1.mpr ⟨by decide, by decide, by decide, by decide⟩
  exact ⟨request, built, (trip.2 request built).2⟩

end SessionOffload
