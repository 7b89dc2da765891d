import SessionOffload.Opof

/-! The messages of tunneloffload.proto. A oneof is an option of an inductive type, a
submessage that may be absent an option of a structure, and the open enumerations are
words with named values. -/
namespace SessionOffload

abbrev Operation := Word32

def operationNone : Operation := 0#32
def operationCreate : Operation := 1#32
def operationUpdate : Operation := 2#32
def operationDelete : Operation := 3#32

abbrev EncType := Word32

def aes256gcm64 : EncType := 0#32
def aes256gcm96 : EncType := 1#32
def aes256gcm128 : EncType := 2#32

abbrev IPSecTunnelType := Word32

def transport : IPSecTunnelType := 0#32
def tunnelMode : IPSecTunnelType := 1#32
def transportNatTraversal : IPSecTunnelType := 2#32
def tunnelNatTraversal : IPSecTunnelType := 3#32

abbrev NextAction := Word32

structure MacPair where
  destinationMac : List Byte
  sourceMac : List Byte
  deriving DecidableEq, Repr

def MacPair.empty : MacPair := ⟨[], []⟩

structure IPV4Pair where
  sourceIp : Word32
  destinationIp : Word32
  deriving DecidableEq, Repr

structure IPV6Pair where
  sourceIp : List Byte
  destinationIp : List Byte
  deriving DecidableEq, Repr

structure IPV4Match where
  sourceIp : Word32
  sourceIpPrefix : Word32
  destinationIp : Word32
  destinationIpPrefix : Word32
  deriving DecidableEq, Repr

def IPV4Match.empty : IPV4Match := ⟨0#32, 0#32, 0#32, 0#32⟩

structure IPV6Match where
  sourceIp : List Byte
  sourceIpPrefix : Word32
  destinationIp : List Byte
  destinationIpPrefix : Word32
  deriving DecidableEq, Repr

inductive IpMatch where
  | ipv4Match (m : IPV4Match)
  | ipv6Match (m : IPV6Match)
  deriving DecidableEq, Repr

structure IPSecMatch where
  spi : Word32
  sn : Word32
  deriving DecidableEq, Repr

structure GeneveMatch where
  vni : Word32
  macMatch : Option MacPair
  protocolType : Word32
  ipMatch : Option IpMatch
  deriving DecidableEq, Repr

structure VXLanMatch where
  vni : Word32
  macMatch : Option MacPair
  ipMatch : Option IpMatch
  deriving DecidableEq, Repr

inductive TunnelMatch where
  | ipsecMatch (m : IPSecMatch)
  | geneveMatch (m : GeneveMatch)
  | vxlanMatch (m : VXLanMatch)
  deriving DecidableEq, Repr

structure MatchCriteria where
  ingressInterface : String
  macMatch : Option MacPair
  ipMatch : Option IpMatch
  tunnelId : Word64
  tunnelMatch : Option TunnelMatch
  deriving DecidableEq, Repr

def MatchCriteria.empty : MatchCriteria := ⟨"", none, none, 0#64, none⟩

/-- The ipv4Match field as it reads, whichever member of the oneof is set. -/
def MatchCriteria.ipv4Match (m : MatchCriteria) : IPV4Match :=
  match m.ipMatch with
  | some (.ipv4Match v) => v
  | _ => .empty

structure GENEVEOption where
  optionClass : Word32
  type : Word32
  length : Word32
  data : List Byte
  deriving DecidableEq, Repr

inductive OuterIp where
  | outerIpv4Pair (pair : IPV4Pair)
  | outerIpv6Pair (pair : IPV6Pair)
  deriving DecidableEq, Repr

structure GENEVEEncap where
  ip : Option OuterIp
  innerMacPair : Option MacPair
  optionLength : Word32
  controlPacket : Bool
  criticalOptionPresent : Bool
  vni : Word32
  protocolType : Word32
  geneveOption : List GENEVEOption
  deriving DecidableEq, Repr

inductive EncapDecap where
  | geneveEncap (encap : GENEVEEncap)
  | geneveDecap
  deriving DecidableEq, Repr

structure GENEVE where
  encapDecap : Option EncapDecap
  deriving DecidableEq, Repr

structure IPSecSAParams where
  spi : Word32
  encryptionKey : List Byte
  operation : Operation
  deriving DecidableEq, Repr

def IPSecSAParams.empty : IPSecSAParams := ⟨0#32, [], operationNone⟩

inductive TunnelIps where
  | ipv4Tunnel (pair : IPV4Pair)
  | ipv6Tunnel (pair : IPV6Pair)
  deriving DecidableEq, Repr

structure IPSecEnc where
  tunnelType : IPSecTunnelType
  encryptionType : EncType
  ipsecSA : Option IPSecSAParams
  tunnelIps : Option TunnelIps
  deriving DecidableEq, Repr

def IPSecEnc.empty : IPSecEnc := ⟨0#32, aes256gcm64, none, none⟩

structure IPSecDec where
  tunnelType : IPSecTunnelType
  encryptionType : EncType
  ipsecSAs : List IPSecSAParams
  deriving DecidableEq, Repr

inductive IPSecMode where
  | ipsecEnc (enc : IPSecEnc)
  | ipsecDec (dec : IPSecDec)
  deriving DecidableEq, Repr

structure IPSecTunnel where
  ipsec : Option IPSecMode
  deriving DecidableEq, Repr

def IPSecTunnel.empty : IPSecTunnel := ⟨none⟩

structure NAT where
  sourceIp : Word32
  deriving DecidableEq, Repr

inductive TunnelOneof where
  | ipsecTunnel (tunnel : IPSecTunnel)
  | geneve (geneve : GENEVE)
  | nat (nat : NAT)
  deriving DecidableEq, Repr

structure IpTunnelRequest where
  tunnelId : Word64
  operation : Operation
  matchCriteria : MatchCriteria
  nextAction : NextAction
  tunnel : Option TunnelOneof
  deriving DecidableEq, Repr

structure MatchCapabilities where
  ingressInterfaceMatching : Bool
  vxlanMatching : Bool
  geneveMatching : Bool
  tunnelMatching : Bool
  spiMatching : Bool
  deriving DecidableEq, Repr

structure IPSecCapabilities where
  tunnelTypeSupported : List IPSecTunnelType
  encryptionSupported : List EncType
  deriving DecidableEq, Repr

structure GENEVECapabilities where
  numberGeneveOptionsSupported : Word32
  deriving DecidableEq, Repr

structure CapabilityResponse where
  matchCapabilities : MatchCapabilities
  ipsecCapabilities : IPSecCapabilities
  geneveCapabilities : GENEVECapabilities
  deriving DecidableEq, Repr

/-- The ipsecTunnel field as it reads, whichever member of the oneof is set. -/
def IpTunnelRequest.ipsecTunnel (request : IpTunnelRequest) : IPSecTunnel :=
  match request.tunnel with
  | some (.ipsecTunnel tunnel) => tunnel
  | _ => .empty

end SessionOffload
