import Mathlib.Tactic.Ring
import SessionOffload.TunnelValidity
import SessionOffload.Lib.Check

/-! What the checks of a tunnel request accept, and what they raise. Each is a chain of tests
and is related to a predicate that says what all of them ask for. -/
namespace SessionOffload
open Check

section Ipsec

def IPSecMode.encryptionType : IPSecMode → EncType
  | .ipsecEnc enc => enc.encryptionType
  | .ipsecDec dec => dec.encryptionType

/-- The security associations of either direction; encryption has the one that is set, or an
empty one. -/
def IPSecMode.ipsecSAs : IPSecMode → List IPSecSAParams
  | .ipsecEnc enc => [enc.ipsecSA.getD .empty]
  | .ipsecDec dec => dec.ipsecSAs

def IPSecMode.tunnelType : IPSecMode → TunnelType
  | .ipsecEnc _ => .ipsecEncryption
  | .ipsecDec _ => .ipsecDecryption

def KeySized (sa : IPSecSAParams) : Prop :=
  sa.spi ≠ 0#32 → sa.operation ≠ operationDelete → sa.encryptionKey.length = 64

structure WellFormedIpsec (mode : IPSecMode) : Prop where
  supported : mode.encryptionType ∈ supportedIpsecEnc
  someSpi : ∃ sa ∈ mode.ipsecSAs, sa.spi ≠ 0#32
  keys : ∀ sa ∈ mode.ipsecSAs, KeySized sa

def AcceptedIpsec (mode : IPSecMode) : Prop :=
  ∃ tunnelType, checkIpsecTunnelValidity ⟨some mode⟩ = .ok tunnelType

/-- There is a first security association, and if it has no SPI then none has. -/
def SpiFirst (mode : IPSecMode) : Prop :=
  ∃ sa ∈ mode.ipsecSAs.head?, sa.spi = 0#32 → ∀ other ∈ mode.ipsecSAs, other.spi = 0#32

theorem encryptionType_accepted (encryptionType : EncType) :
    checkEncryptionType encryptionType = .ok () ↔ encryptionType ∈ supportedIpsecEnc := by
  unfold checkEncryptionType
  split
  · next supported => exact iff_of_true rfl supported
  · next other => exact iff_of_false (fun raised => by cases raised) other

theorem ipsecSAs_found (sas : List IPSecSAParams) :
    checkIpsecSAs true sas = .ok () ↔ ∀ sa ∈ sas, KeySized sa := by
  induction sas with
  | nil => exact iff_of_true rfl (fun _ member => absurd member List.not_mem_nil)
  | cons sa sas ih =>
    rw [List.forall_mem_cons, checkIpsecSAs]
    by_cases used : sa.spi ≠ 0#32
    · rw [if_pos used, test_ok, ih, not_and_not_right]
      exact and_congr_left' ⟨fun sized _ => sized, fun sized => sized used⟩
    · rw [if_neg used, if_neg (by decide), ih, iff_and_self]
      exact fun _ used' => absurd used' used

theorem ipsecSAs_accepted (sas : List IPSecSAParams) :
    checkIpsecSAs false sas = .ok () ↔
      (∀ sa ∈ sas, KeySized sa) ∧ ∀ sa ∈ sas.head?, sa.spi ≠ 0#32 := by
  cases sas with
  | nil =>
    refine iff_of_true rfl ⟨fun _ member => absurd member List.not_mem_nil, ?_⟩
    intro sa first
    cases first
  | cons sa sas =>
    have found := ipsecSAs_found (sa :: sas)
    rw [List.head?_cons]
    by_cases used : sa.spi ≠ 0#32
    · rw [checkIpsecSAs, if_pos used] at found ⊢
      rw [found]
      refine (and_iff_left ?_).symm
      intro first same
      cases Option.some.inj same
      exact used
    · rw [checkIpsecSAs, if_neg used, if_pos rfl]
      exact iff_of_false (fun raised => by cases raised) (fun sized => used (sized.2 sa rfl))

theorem ipsec_accepted (mode : IPSecMode) :
    AcceptedIpsec mode ↔ mode.encryptionType ∈ supportedIpsecEnc ∧
      (∀ sa ∈ mode.ipsecSAs, KeySized sa) ∧ ∀ sa ∈ mode.ipsecSAs.head?, sa.spi ≠ 0#32 := by
  have check : checkIpsecTunnelValidity ⟨some mode⟩ = (do
      checkEncryptionType mode.encryptionType
      checkIpsecSAs false mode.ipsecSAs
      .ok mode.tunnelType) := by
    cases mode <;> rfl
  unfold AcceptedIpsec
  simp only [check, then_ok, encryptionType_accepted, ipsecSAs_accepted]
  constructor
  · rintro ⟨_, supported, sized, _⟩
    exact ⟨supported, sized⟩
  · rintro ⟨supported, sized⟩
    exact ⟨_, supported, sized, rfl⟩

def SpiLeads (mode : IPSecMode) : Prop :=
  mode.encryptionType ∈ supportedIpsecEnc → (∀ sa ∈ mode.ipsecSAs, KeySized sa) → SpiFirst mode

theorem accepted_wellFormed_iff (mode : IPSecMode) :
    (AcceptedIpsec mode ↔ WellFormedIpsec mode) ↔ SpiLeads mode := by
  rw [ipsec_accepted]
  constructor
  · intro same supported sized
    cases first : mode.ipsecSAs.head? with
    | none =>
      have leads : ∀ sa, mode.ipsecSAs.head? = some sa → sa.spi ≠ 0#32 := by
        intro sa here
        rw [first] at here
        cases here
      have wellFormed := same.mp ⟨supported, sized, leads⟩
      obtain ⟨sa, member, _⟩ := wellFormed.someSpi
      rw [List.head?_eq_none_iff.mp first] at member
      cases member
    | some sa =>
      refine ⟨sa, first, fun zero other member => ?_⟩
      by_contra used
      have accepted := same.mpr ⟨supported, ⟨other, member, used⟩, sized⟩
      exact accepted.2.2 sa first zero
  · intro leads
    constructor
    · rintro ⟨supported, sized, nonzero⟩
      obtain ⟨sa, first, _⟩ := leads supported sized
      exact ⟨supported, ⟨sa, List.mem_of_mem_head? first, nonzero sa first⟩, sized⟩
    · rintro ⟨supported, ⟨other, member, used⟩, sized⟩
      obtain ⟨sa, first, same⟩ := leads supported sized
      refine ⟨supported, sized, fun sa' first' zero => ?_⟩
      cases first.symm.trans first'
      exact used (same zero other member)

theorem encryption_leads (enc : IPSecEnc) : SpiLeads (.ipsecEnc enc) := by
  intro _ _
  refine ⟨enc.ipsecSA.getD .empty, rfl, fun zero other member => ?_⟩
  rw [List.mem_singleton.mp member]
  exact zero

theorem wellFormed_perm {mode other : IPSecMode} (same : mode.encryptionType = other.encryptionType)
    (reordered : mode.ipsecSAs.Perm other.ipsecSAs) (wellFormed : WellFormedIpsec mode) :
    WellFormedIpsec other := by
  obtain ⟨sa, member, used⟩ := wellFormed.someSpi
  exact ⟨same ▸ wellFormed.supported, ⟨sa, reordered.mem_iff.mp member, used⟩,
    fun sa member => wellFormed.keys sa (reordered.mem_iff.mpr member)⟩

/-- The check accepts exactly the well-formed tunnels where the first security association
leads, which it does for encryption; among such tunnels the order has no part in the
verdict. -/
theorem ipsec_exact (mode : IPSecMode) :
    ((AcceptedIpsec mode ↔ WellFormedIpsec mode) ↔ SpiLeads mode) ∧
    (∀ enc, mode = .ipsecEnc enc → SpiLeads mode) ∧
    (∀ other, mode.encryptionType = other.encryptionType → mode.ipsecSAs.Perm other.ipsecSAs →
      SpiLeads mode → SpiLeads other → (AcceptedIpsec mode ↔ AcceptedIpsec other)) := by
  refine ⟨accepted_wellFormed_iff mode, fun enc same => same ▸ encryption_leads enc, ?_⟩
  intro other same reordered leads leads'
  rw [(accepted_wellFormed_iff mode).mpr leads, (accepted_wellFormed_iff other).mpr leads']
  exact ⟨wellFormed_perm same reordered, wellFormed_perm same.symm reordered.symm⟩

def decryption (ipsecSAs : List IPSecSAParams) : IPSecMode :=
  .ipsecDec ⟨tunnelMode, aes256gcm64, ipsecSAs⟩

def keyed : IPSecSAParams := ⟨1030#32, List.replicate 64 97#8, operationCreate⟩

/-- No association at all is accepted, and an empty one is only when it does not come first. -/
theorem ipsec_inexact :
    AcceptedIpsec (decryption []) ∧ ¬ WellFormedIpsec (decryption []) ∧
    AcceptedIpsec (decryption [keyed, .empty]) ∧ ¬ AcceptedIpsec (decryption [.empty, keyed]) ∧
    WellFormedIpsec (decryption [.empty, keyed]) := by
  have wellFormed : WellFormedIpsec (decryption [.empty, keyed]) := by
    refine ⟨by decide, ⟨keyed, .tail _ (.head _), by decide⟩, fun sa member => ?_⟩
    rcases List.mem_pair.mp member with rfl | rfl
    · exact fun used => absurd rfl used
    · exact fun _ _ => rfl
  refine ⟨⟨_, rfl⟩, fun wellFormed => ?_, ⟨_, rfl⟩, fun accepted => ?_, wellFormed⟩
  · obtain ⟨sa, member, _⟩ := wellFormed.someSpi
    cases member
  · exact ((ipsec_accepted _).mp accepted).2.2 .empty rfl rfl

end Ipsec

section Geneve

structure OptionAccepted (option : GENEVEOption) : Prop where
  optionClass : option.optionClass.toNat < 2 ^ 16
  type : option.type.toNat < 2 ^ 8
  length : option.length.toNat < 2 ^ 5
  data : option.data.length = 4 * option.length.toNat

def MacPair.Sized (pair : MacPair) : Prop :=
  pair.sourceMac.length = 12 ∧ pair.destinationMac.length = 12

def OuterIp.Sized : OuterIp → Prop
  | .outerIpv4Pair _ => True
  | .outerIpv6Pair pair => pair.sourceIp.length = 32 ∧ pair.destinationIp.length = 32

structure EncapAccepted (encap : GENEVEEncap) : Prop where
  macs : (encap.innerMacPair.getD .empty).Sized
  vni : encap.vni.toNat < 2 ^ 24
  ip : ∃ ip, encap.ip = some ip ∧ ip.Sized
  options : ∀ option ∈ encap.geneveOption, OptionAccepted option

def GENEVEOption.words (option : GENEVEOption) : Nat := 1 + option.length.toNat

/-- The header announces its options as the wire format has it, with no more of them than
the server advertises. -/
structure Announced (encap : GENEVEEncap) : Prop where
  optionLength : encap.optionLength.toNat < 2 ^ 6
  room : (encap.geneveOption.map GENEVEOption.words).sum ≤ encap.optionLength.toNat
  few : encap.geneveOption.length ≤
    capabilities.geneveCapabilities.numberGeneveOptionsSupported.toNat

structure OnWire (encap : GENEVEEncap) : Prop where
  vni : encap.vni.toNat < 2 ^ 24
  options : ∀ option ∈ encap.geneveOption, OptionAccepted option
  announced : Announced encap

theorem option_accepted (option : GENEVEOption) :
    validateGeneveOption option = .ok () ↔ OptionAccepted option := by
  simp only [validateGeneveOption, test_ok]
  constructor
  · rintro ⟨optionClass, type, length, whole, fits, _⟩
    exact ⟨by omega, by omega, by omega, by omega⟩
  · rintro ⟨optionClass, type, length, data⟩
    exact ⟨by omega, by omega, by omega, by omega, by omega, trivial⟩

theorem options_accepted (options : List GENEVEOption) :
    validateGeneveOptions options = .ok () ↔ ∀ option ∈ options, OptionAccepted option := by
  induction options with
  | nil => exact iff_of_true rfl (fun _ member => absurd member List.not_mem_nil)
  | cons option options ih =>
    rw [validateGeneveOptions, then_ok, option_accepted, ih, List.forall_mem_cons]

theorem macPair_accepted (pair : MacPair) : validateMacPair pair = .ok () ↔ pair.Sized := by
  simp only [validateMacPair, test_ok, not_not, MacPair.Sized, and_true]

theorem ipv6Pair_accepted (pair : IPV6Pair) :
    validateIpv6Pair pair = .ok () ↔ (OuterIp.outerIpv6Pair pair).Sized := by
  simp only [validateIpv6Pair, test_ok, not_not, OuterIp.Sized, and_true]

theorem encap_accepted (encap : GENEVEEncap) :
    checkGeneveEncapValidity encap = .ok () ↔ EncapAccepted encap := by
  rw [checkGeneveEncapValidity, then_ok, test_ok, macPair_accepted]
  constructor
  · rintro ⟨macs, vni, rest⟩
    cases ip : encap.ip with
    | none =>
      rw [ip] at rest
      cases rest
    | some outer =>
      rw [ip] at rest
      cases outer with
      | outerIpv4Pair pair =>
        exact ⟨macs, by omega, ⟨_, ip, trivial⟩, (options_accepted _).mp rest⟩
      | outerIpv6Pair pair =>
        obtain ⟨addresses, options⟩ := then_ok.mp rest
        exact ⟨macs, by omega, ⟨_, ip, (ipv6Pair_accepted pair).mp addresses⟩,
          (options_accepted _).mp options⟩
  · rintro ⟨macs, vni, ⟨outer, ip, sized⟩, options⟩
    refine ⟨macs, by omega, ?_⟩
    rw [ip]
    cases outer with
    | outerIpv4Pair pair => exact (options_accepted _).mpr options
    | outerIpv6Pair pair =>
      exact then_ok.mpr ⟨(ipv6Pair_accepted pair).mpr sized, (options_accepted _).mpr options⟩

/-- The check never looks at the announced length, at the room the options take together or
at their number: an encapsulation that it accepts can be put on the wire exactly when
these are right as well. -/
theorem encap_exact (encap : GENEVEEncap) :
    (checkGeneveEncapValidity encap = .ok () → OnWire encap) ↔
      (EncapAccepted encap → Announced encap) := by
  rw [encap_accepted]
  constructor
  · exact fun sound accepted => (sound accepted).announced
  · exact fun announced accepted => ⟨accepted.vni, accepted.options, announced accepted⟩

def encapsulation (optionLength : Word32) (options : List GENEVEOption) : GENEVEEncap where
  ip := some (.outerIpv4Pair ⟨1#32, 2#32⟩)
  innerMacPair := some ⟨List.replicate 12 97#8, List.replicate 12 98#8⟩
  optionLength := optionLength
  controlPacket := false
  criticalOptionPresent := false
  vni := 5#32
  protocolType := 25944#32
  geneveOption := options

def emptyOption : GENEVEOption := ⟨0#32, 0#32, 0#32, []⟩

/-- Accepted are a length of seven bits, an option without room for it, and six options. -/
theorem encap_unannounced :
    (checkGeneveEncapValidity (encapsulation 64#32 []) = .ok () ∧
      ¬ OnWire (encapsulation 64#32 [])) ∧
    (checkGeneveEncapValidity (encapsulation 0#32 [emptyOption]) = .ok () ∧
      ¬ OnWire (encapsulation 0#32 [emptyOption])) ∧
    (checkGeneveEncapValidity (encapsulation 6#32 (List.replicate 6 emptyOption)) = .ok () ∧
      ¬ OnWire (encapsulation 6#32 (List.replicate 6 emptyOption))) := by
  refine ⟨⟨rfl, fun wire => ?_⟩, ⟨rfl, fun wire => ?_⟩, ⟨rfl, fun wire => ?_⟩⟩
  · exact absurd wire.announced.optionLength (by decide)
  · exact absurd wire.announced.room (by decide)
  · exact absurd wire.announced.few (by decide)

end Geneve

section Totality

def Raised.Validation (e : Raised) : Prop := ∃ message, e = .tunnelValidationExcp message

def Answers (request : IpTunnelRequest) : Prop :=
  (∃ tunnelType, checkTunnelValidity request = .ok tunnelType) ∨
    ∃ message, checkTunnelValidity request = .error (.tunnelValidationExcp message)

def DirectionSet (request : IpTunnelRequest) : Prop :=
  request.tunnel ≠ some (.geneve ⟨none⟩) ∧ request.tunnel ≠ some (.ipsecTunnel ⟨none⟩)

theorem option_raises (option : GENEVEOption) :
    RaisesOnly Raised.Validation (validateGeneveOption option) := by
  unfold validateGeneveOption
  apply raisesOnly_test ⟨_, rfl⟩
  apply raisesOnly_test ⟨_, rfl⟩
  apply raisesOnly_test ⟨_, rfl⟩
  apply raisesOnly_test ⟨_, rfl⟩
  apply raisesOnly_test ⟨_, rfl⟩
  exact raisesOnly_ok ()

theorem options_raise (options : List GENEVEOption) :
    RaisesOnly Raised.Validation (validateGeneveOptions options) := by
  induction options with
  | nil => exact raisesOnly_ok ()
  | cons option options ih => exact raisesOnly_then (option_raises option) ih

theorem macPair_raises (pair : MacPair) :
    RaisesOnly Raised.Validation (validateMacPair pair) := by
  unfold validateMacPair
  apply raisesOnly_test ⟨_, rfl⟩
  apply raisesOnly_test ⟨_, rfl⟩
  exact raisesOnly_ok ()

theorem ipv6Pair_raises (pair : IPV6Pair) :
    RaisesOnly Raised.Validation (validateIpv6Pair pair) := by
  unfold validateIpv6Pair
  apply raisesOnly_test ⟨_, rfl⟩
  apply raisesOnly_test ⟨_, rfl⟩
  exact raisesOnly_ok ()

theorem encap_raises (encap : GENEVEEncap) :
    RaisesOnly Raised.Validation (checkGeneveEncapValidity encap) := by
  unfold checkGeneveEncapValidity
  apply raisesOnly_then (macPair_raises _)
  apply raisesOnly_test ⟨_, rfl⟩
  split
  · exact raisesOnly_error ⟨_, rfl⟩
  · exact raisesOnly_then (ipv6Pair_raises _) (options_raise _)
  · exact options_raise _

theorem ipsecSAs_raise (spiFound : Bool) (sas : List IPSecSAParams) :
    RaisesOnly Raised.Validation (checkIpsecSAs spiFound sas) := by
  induction sas generalizing spiFound with
  | nil => exact raisesOnly_ok ()
  | cons sa sas ih =>
    rw [checkIpsecSAs]
    split
    · exact raisesOnly_test ⟨_, rfl⟩ (ih true)
    · exact raisesOnly_test ⟨_, rfl⟩ (ih spiFound)

theorem encryptionType_raises (encryptionType : EncType) :
    RaisesOnly Raised.Validation (checkEncryptionType encryptionType) := by
  unfold checkEncryptionType
  split
  · exact raisesOnly_ok ()
  · exact raisesOnly_error ⟨_, rfl⟩

theorem mode_raises (mode : IPSecMode) :
    RaisesOnly Raised.Validation (checkIpsecTunnelValidity ⟨some mode⟩) := by
  cases mode with
  | ipsecEnc enc =>
    apply raisesOnly_then (encryptionType_raises _)
    exact raisesOnly_then (ipsecSAs_raise _ _) (raisesOnly_ok _)
  | ipsecDec dec =>
    apply raisesOnly_then (encryptionType_raises _)
    exact raisesOnly_then (ipsecSAs_raise _ _) (raisesOnly_ok _)

theorem answers_of_raises {request : IpTunnelRequest}
    (only : RaisesOnly Raised.Validation (checkTunnelValidity request)) : Answers request := by
  rcases ok_or_raises only with passed | ⟨e, raised, message, rfl⟩
  · exact .inl passed
  · exact .inr ⟨message, raised⟩

/-- A validation ends with a verdict if and only if the oneof that says in which direction
the tunnel goes has a member. Without one a GENEVE part raises a TypeError, and an IPsec
part, whose default encryption is a supported one, an AttributeError. -/
theorem answers_iff (request : IpTunnelRequest) : Answers request ↔ DirectionSet request := by
  constructor
  · rintro answers
    refine ⟨fun unset => ?_, fun unset => ?_⟩
    · have raised : checkTunnelValidity request = .error .typeError := by
        rw [checkTunnelValidity, unset]
        rfl
      rcases answers with ⟨_, passed⟩ | ⟨_, refused⟩
      · cases raised.symm.trans passed
      · cases raised.symm.trans refused
    · have raised : checkTunnelValidity request = .error .attributeError := by
        rw [checkTunnelValidity, unset]
        rfl
      rcases answers with ⟨_, passed⟩ | ⟨_, refused⟩
      · cases raised.symm.trans passed
      · cases raised.symm.trans refused
  · rintro ⟨geneveSet, ipsecSet⟩
    apply answers_of_raises
    unfold checkTunnelValidity
    split
    · exact raisesOnly_error ⟨_, rfl⟩
    · next geneve tunnel =>
      obtain ⟨encapDecap⟩ := geneve
      cases encapDecap with
      | none => exact absurd tunnel geneveSet
      | some direction =>
        cases direction with
        | geneveEncap encap => exact raisesOnly_then (encap_raises encap) (raisesOnly_ok _)
        | geneveDecap => exact raisesOnly_ok _
    · next ipsec tunnel =>
      obtain ⟨direction⟩ := ipsec
      cases direction with
      | none => exact absurd tunnel ipsecSet
      | some mode => exact mode_raises mode
    · exact raisesOnly_error ⟨_, rfl⟩

def createRequest (tunnel : Option TunnelOneof) : IpTunnelRequest where
  tunnelId := 10003#64
  operation := operationCreate
  matchCriteria := .empty
  nextAction := 0#32
  tunnel := tunnel

theorem direction_unset :
    checkTunnelValidity (createRequest (some (.geneve ⟨none⟩))) = .error .typeError ∧
    checkTunnelValidity (createRequest (some (.ipsecTunnel ⟨none⟩))) = .error .attributeError ∧
    ¬ Answers (createRequest (some (.geneve ⟨none⟩))) ∧
    ¬ Answers (createRequest (some (.ipsecTunnel ⟨none⟩))) := by
  refine ⟨rfl, rfl, fun answers => ?_, fun answers => ?_⟩
  · rcases answers with ⟨_, passed⟩ | ⟨_, refused⟩
    · cases passed
    · cases refused
  · rcases answers with ⟨_, passed⟩ | ⟨_, refused⟩
    · cases passed
    · cases refused

end Totality

end SessionOffload
