import SessionOffload.SummaryScan
import SessionOffload.Lib.Inet
import SessionOffload.Lib.Check

/-! The match criteria of tunnels_helper.py: the address texts and numbers of a Match, and
the MatchCriteria that assign_match_to_object builds from them. -/
namespace SessionOffload
open Inet

inductive MatchRaised where
  | osError | valueError
  deriving DecidableEq, Repr

def ipv4ToInt (order : ByteOrder) (ipv4 : String) : Except MatchRaised Int :=
  match inetPton ipv4 with
  | none => .error .osError
  | some bytes => .ok (intFromBytes order bytes)

theorem ipv4ToInt_ok {order : ByteOrder} {text : String} {v : Int}
    (read : ipv4ToInt order text = .ok v) :
    ∃ bytes, inetPton text = some bytes ∧ v = intFromBytes order bytes := by
  unfold ipv4ToInt at read
  split at read
  · cases read
  · next bytes parsed =>
    cases read
    exact ⟨bytes, parsed, rfl⟩

theorem ipv4ToInt_inj {order : ByteOrder} {text text' : String} {v : Int}
    (read : ipv4ToInt order text = .ok v) (read' : ipv4ToInt order text' = .ok v) :
    text = text' := by
  obtain ⟨bytes, parsed, value⟩ := ipv4ToInt_ok read
  obtain ⟨bytes', parsed', value'⟩ := ipv4ToInt_ok read'
  obtain ⟨four, spelled⟩ := inetPton_iff.mp parsed
  obtain ⟨four', spelled'⟩ := inetPton_iff.mp parsed'
  have same : intFromBytes order bytes = intFromBytes order bytes' :=
    Int.natCast_inj.mp (value.symm.trans value')
  rw [spelled, spelled', intFromBytes_inj (four.trans four'.symm) same]

def Fits (w : Nat) (v : Int) : Prop := 0 ≤ v ∧ v < 2 ^ w

instance (w : Nat) (v : Int) : Decidable (Fits w v) := inferInstanceAs (Decidable (_ ∧ _))

def unsigned (w : Nat) (v : Int) : Except MatchRaised (BitVec w) :=
  if Fits w v then .ok (BitVec.ofInt w v) else .error .valueError

theorem ipv4ToInt_fits {order : ByteOrder} {text : String} {v : Int}
    (read : ipv4ToInt order text = .ok v) : Fits 32 v := by
  obtain ⟨bytes, parsed, rfl⟩ := ipv4ToInt_ok read
  have below := intFromBytes_lt order bytes
  rw [(inetPton_iff.mp parsed).1] at below
  constructor
  · exact Int.natCast_nonneg _
  · exact_mod_cast below

theorem ofInt_toNat {w : Nat} {v : Int} (fits : Fits w v) : (BitVec.ofInt w v).toNat = v := by
  obtain ⟨nonneg, below⟩ := fits
  rw [BitVec.toNat_ofInt, Int.emod_eq_of_lt nonneg (by exact_mod_cast below),
    Int.toNat_of_nonneg nonneg]

theorem unsigned_ok {w : Nat} {v : Int} (fits : Fits w v) :
    unsigned w v = .ok (BitVec.ofInt w v) :=
  if_pos fits

structure Match where
  sourceIp : Option String
  sourceIpMask : Int
  destIp : Option String
  destIpMask : Int
  tunnelId : Option Int
  spi : Option Int
  geneveVni : Option Int
  deriving DecidableEq, Repr

def Match.empty : Match := ⟨none, 32, none, 32, none, none, none⟩

def MatchCriteria.ipsecMatch (c : MatchCriteria) : IPSecMatch :=
  match c.tunnelMatch with
  | some (.ipsecMatch v) => v
  | _ => ⟨0#32, 0#32⟩

def MatchCriteria.geneveMatch (c : MatchCriteria) : GeneveMatch :=
  match c.tunnelMatch with
  | some (.geneveMatch v) => v
  | _ => ⟨0#32, none, 0#32, none⟩

def MatchCriteria.setSourceIp (word : Word32) (c : MatchCriteria) : MatchCriteria :=
  { c with ipMatch := some (.ipv4Match { c.ipv4Match with sourceIp := word }) }

def MatchCriteria.setSourceIpPrefix (word : Word32) (c : MatchCriteria) : MatchCriteria :=
  { c with ipMatch := some (.ipv4Match { c.ipv4Match with sourceIpPrefix := word }) }

def MatchCriteria.setTunnelId (word : Word64) (c : MatchCriteria) : MatchCriteria :=
  { c with tunnelId := word }

def MatchCriteria.setSpi (word : Word32) (c : MatchCriteria) : MatchCriteria :=
  { c with tunnelMatch := some (.ipsecMatch { c.ipsecMatch with spi := word }) }

def MatchCriteria.setVni (word : Word32) (c : MatchCriteria) : MatchCriteria :=
  { c with tunnelMatch := some (.geneveMatch { c.geneveMatch with vni := word }) }

/-- The block of an address. The one of the destination is no other: it writes the source
fields too. -/
def assignAddress (order : ByteOrder) (ip : Option String) (mask : Int) (c : MatchCriteria) :
    Except MatchRaised MatchCriteria :=
  match ip with
  | none => .ok c
  | some text =>
    if text = "" then .ok c
    else do
      let address ← ipv4ToInt order text
      let word ← unsigned 32 address
      let maskWord ← unsigned 32 mask
      .ok ((c.setSourceIp word).setSourceIpPrefix maskWord)

def assignNumber {w : Nat} (write : BitVec w → MatchCriteria → MatchCriteria)
    (number : Option Int) (c : MatchCriteria) : Except MatchRaised MatchCriteria :=
  match number with
  | none => .ok c
  | some v =>
    if v = 0 then .ok c
    else do
      let word ← unsigned w v
      .ok (write word c)

def assignMatchToObject (order : ByteOrder) (c : MatchCriteria) (m : Match) :
    Except MatchRaised MatchCriteria := do
  let c ← assignAddress order m.sourceIp m.sourceIpMask c
  let c ← assignAddress order m.destIp m.destIpMask c
  let c ← assignNumber MatchCriteria.setTunnelId m.tunnelId c
  let c ← assignNumber MatchCriteria.setSpi m.spi c
  assignNumber MatchCriteria.setVni m.geneveVni c

/-- What a Match gives: a mask belongs to an address that is given. -/
@[ext] structure Given where
  source : Option (String × Int)
  dest : Option (String × Int)
  tunnelId : Option Int
  spi : Option Int
  vni : Option Int
  deriving DecidableEq, Repr

def Match.given (m : Match) : Given where
  source := m.sourceIp.map fun text => (text, m.sourceIpMask)
  dest := m.destIp.map fun text => (text, m.destIpMask)
  tunnelId := m.tunnelId
  spi := m.spi
  vni := m.geneveVni

def AssignableAddress (address : Option (String × Int)) : Prop :=
  ∀ text mask, address = some (text, mask) →
    text = "" ∨ (inetPton text).isSome ∧ Fits 32 mask

/-- What is passed over or can be stored: an empty text and a zero are as good as none. -/
structure Given.Assignable (g : Given) : Prop where
  source : AssignableAddress g.source
  dest : AssignableAddress g.dest
  tunnelId : ∀ v, g.tunnelId = some v → Fits 64 v
  spi : ∀ v, g.spi = some v → Fits 32 v
  vni : ∀ v, g.vni = some v → Fits 32 v

theorem ok_then {α β : Type} (a : α) (f : α → Except MatchRaised β) : (.ok a >>= f) = f a := rfl

theorem unsigned_answers {w : Nat} {v : Int} : (∃ word, unsigned w v = .ok word) ↔ Fits w v := by
  constructor
  · rintro ⟨word, stored⟩
    by_contra unfit
    rw [unsigned, if_neg unfit] at stored
    cases stored
  · exact fun fits => ⟨_, unsigned_ok fits⟩

theorem assignAddress_answers (order : ByteOrder) (ip : Option String) (mask : Int)
    (c : MatchCriteria) :
    (∃ d, assignAddress order ip mask c = .ok d) ↔
      AssignableAddress (ip.map fun text => (text, mask)) := by
  cases ip with
  | none => exact iff_of_true ⟨c, rfl⟩ fun _ _ given => by cases given
  | some text =>
    have given : AssignableAddress (some (text, mask)) ↔
        text = "" ∨ (inetPton text).isSome ∧ Fits 32 mask := by
      simp [AssignableAddress]
    rw [Option.map_some, given]
    by_cases empty : text = ""
    · exact iff_of_true ⟨c, if_pos empty⟩ (.inl empty)
    · rw [assignAddress, if_neg empty, or_iff_right empty]
      cases parsed : inetPton text with
      | none =>
        have read : ipv4ToInt order text = .error .osError := by simp only [ipv4ToInt, parsed]
        rw [read]
        exact iff_of_false (fun ⟨d, run⟩ => by cases run) (fun both => by cases both.1)
      | some bytes =>
        have read : ipv4ToInt order text = .ok (intFromBytes order bytes) := by
          simp only [ipv4ToInt, parsed]
        rw [read, ok_then, unsigned_ok (ipv4ToInt_fits read), ok_then,
          Check.answers_then unsigned_answers fun maskWord => iff_of_true ⟨_, rfl⟩ trivial]
        exact (and_iff_left trivial).trans (and_iff_right rfl).symm

theorem assignNumber_answers {w : Nat} (write : BitVec w → MatchCriteria → MatchCriteria)
    (number : Option Int) (c : MatchCriteria) :
    (∃ d, assignNumber write number c = .ok d) ↔ ∀ v, number = some v → Fits w v := by
  cases number with
  | none => exact iff_of_true ⟨c, rfl⟩ nofun
  | some v =>
    have given : (∀ u, some v = some u → Fits w u) ↔ Fits w v := by simp
    rw [given, assignNumber]
    by_cases zero : v = 0
    · rw [if_pos zero, zero]
      exact iff_of_true ⟨c, rfl⟩ ⟨Int.le_refl 0, by positivity⟩
    · rw [if_neg zero, Check.answers_then unsigned_answers fun word => iff_of_true ⟨_, rfl⟩ trivial]
      exact and_iff_left trivial

theorem assign_answers (order : ByteOrder) (c : MatchCriteria) (m : Match) :
    (∃ d, assignMatchToObject order c m = .ok d) ↔ m.given.Assignable := by
  have blocks := Check.answers_then (assignAddress_answers order m.sourceIp m.sourceIpMask c)
    fun c => Check.answers_then (assignAddress_answers order m.destIp m.destIpMask c)
    fun c => Check.answers_then (assignNumber_answers MatchCriteria.setTunnelId m.tunnelId c)
    fun c => Check.answers_then (assignNumber_answers MatchCriteria.setSpi m.spi c)
    fun c => assignNumber_answers MatchCriteria.setVni m.geneveVni c
  refine blocks.trans ⟨?_, ?_⟩
  · rintro ⟨source, dest, tunnelId, spi, vni⟩
    exact ⟨source, dest, tunnelId, spi, vni⟩
  · rintro ⟨source, dest, tunnelId, spi, vni⟩
    exact ⟨source, dest, tunnelId, spi, vni⟩

/-- An address is a text that inet_pton takes, other than 0.0.0.0, and its mask a number
that the field of the mask holds. -/
def ProperAddress (order : ByteOrder) (address : Option (String × Int)) : Prop :=
  ∀ text mask, address = some (text, mask) →
    (∃ v, ipv4ToInt order text = .ok v ∧ v ≠ 0) ∧ Fits 32 mask

def ProperNumber (w : Nat) (number : Option Int) : Prop :=
  ∀ v, number = some v → v ≠ 0 ∧ Fits w v

theorem properAddress_none {order : ByteOrder} : ProperAddress order none := by
  intro text mask given
  cases given

structure Given.Proper (order : ByteOrder) (g : Given) : Prop where
  source : ProperAddress order g.source
  dest : ProperAddress order g.dest
  tunnelId : ProperNumber 64 g.tunnelId
  spi : ProperNumber 32 g.spi
  vni : ProperNumber 32 g.vni
  single : g.spi = none ∨ g.vni = none

def ReadsAddress (order : ByteOrder) (address : Option (String × Int)) (ip mask : Word32) :
    Prop :=
  match address with
  | none => ip = 0#32 ∧ mask = 0#32
  | some (text, m) => ipv4ToInt order text = .ok ip.toNat ∧ m = mask.toNat

def ReadsNumber {w : Nat} (number : Option Int) (word : BitVec w) : Prop :=
  number.getD 0 = word.toNat

structure Encodes (order : ByteOrder) (g : Given) (c : MatchCriteria) : Prop where
  source : ReadsAddress order g.source c.ipv4Match.sourceIp c.ipv4Match.sourceIpPrefix
  dest : ReadsAddress order g.dest c.ipv4Match.destinationIp c.ipv4Match.destinationIpPrefix
  tunnelId : ReadsNumber g.tunnelId c.tunnelId
  spi : ReadsNumber g.spi c.ipsecMatch.spi
  vni : ReadsNumber g.vni c.geneveMatch.vni
  addressed : c.ipMatch.isSome ↔ g.source.isSome ∨ g.dest.isSome
  tunnelled : c.tunnelMatch.isSome ↔ g.spi.isSome ∨ g.vni.isSome
  other : c.ingressInterface = "" ∧ c.macMatch = none ∧ c.ipsecMatch.sn = 0#32 ∧
    c.geneveMatch.macMatch = none ∧ c.geneveMatch.protocolType = 0#32 ∧
    c.geneveMatch.ipMatch = none

theorem readsAddress_inj {order : ByteOrder} {a b : Option (String × Int)} {ip mask : Word32}
    (properA : ProperAddress order a) (properB : ProperAddress order b)
    (readA : ReadsAddress order a ip mask) (readB : ReadsAddress order b ip mask) : a = b := by
  have unset {text : String} {m : Int} {c : Option (String × Int)} (proper : ProperAddress order c)
      (here : c = some (text, m)) (read : ReadsAddress order c ip mask) : ip ≠ 0#32 := by
    obtain ⟨⟨v, value, nonzero⟩, _⟩ := proper text m here
    rw [here] at read
    rintro rfl
    exact nonzero (Except.ok.inj (value.symm.trans read.1))
  cases a with
  | none =>
    cases b with
    | none => rfl
    | some e => exact absurd readA.1 (unset properB rfl readB)
  | some e =>
    cases b with
    | none => exact absurd readB.1 (unset properA rfl readA)
    | some e' =>
      obtain ⟨text, m⟩ := e
      obtain ⟨text', m'⟩ := e'
      rw [ipv4ToInt_inj readA.1 readB.1, readA.2.trans readB.2.symm]

theorem readsNumber_inj {w : Nat} {a b : Option Int} {word : BitVec w}
    (properA : ProperNumber w a) (properB : ProperNumber w b)
    (readA : ReadsNumber a word) (readB : ReadsNumber b word) : a = b := by
  have same : a.getD 0 = b.getD 0 := readA.trans readB.symm
  cases a with
  | none =>
    cases b with
    | none => rfl
    | some v => exact absurd same.symm (properB v rfl).1
  | some v =>
    cases b with
    | none => exact absurd same (properA v rfl).1
    | some v' => exact congrArg some same

theorem encodes_inj {order : ByteOrder} {g h : Given} {c : MatchCriteria}
    (properG : g.Proper order) (properH : h.Proper order)
    (encG : Encodes order g c) (encH : Encodes order h c) : g = h := by
  ext1
  · exact readsAddress_inj properG.source properH.source encG.source encH.source
  · exact readsAddress_inj properG.dest properH.dest encG.dest encH.dest
  · exact readsNumber_inj properG.tunnelId properH.tunnelId encG.tunnelId encH.tunnelId
  · exact readsNumber_inj properG.spi properH.spi encG.spi encH.spi
  · exact readsNumber_inj properG.vni properH.vni encG.vni encH.vni

def addressWord (order : ByteOrder) (text : String) : Word32 :=
  match ipv4ToInt order text with
  | .ok v => BitVec.ofInt 32 v
  | .error _ => 0#32

def writeAddress (order : ByteOrder) (address : Option (String × Int)) (c : MatchCriteria) :
    MatchCriteria :=
  match address with
  | none => c
  | some (text, mask) =>
    (c.setSourceIp (addressWord order text)).setSourceIpPrefix (BitVec.ofInt 32 mask)

def writeNumber {w : Nat} (write : BitVec w → MatchCriteria → MatchCriteria)
    (number : Option Int) (c : MatchCriteria) : MatchCriteria :=
  match number with
  | none => c
  | some v => write (BitVec.ofInt w v) c

/-- What is left of what is given when the destination is written over the source. -/
def Given.written (g : Given) : Given := { g with source := g.dest.or g.source, dest := none }

def criteria (order : ByteOrder) (g : Given) : MatchCriteria :=
  writeNumber MatchCriteria.setVni g.vni (writeNumber MatchCriteria.setSpi g.spi
    (writeNumber MatchCriteria.setTunnelId g.tunnelId (writeAddress order g.source .empty)))

theorem addressWord_ok {order : ByteOrder} {text : String} {v : Int}
    (read : ipv4ToInt order text = .ok v) : addressWord order text = BitVec.ofInt 32 v := by
  simp only [addressWord, read]

theorem assignAddress_ok {order : ByteOrder} {ip : Option String} {mask : Int}
    (proper : ProperAddress order (ip.map fun text => (text, mask))) (c : MatchCriteria) :
    assignAddress order ip mask c =
      .ok (writeAddress order (ip.map fun text => (text, mask)) c) := by
  cases ip with
  | none => rfl
  | some text =>
    obtain ⟨⟨v, read, _⟩, fits⟩ := proper text mask rfl
    have spelled : text ≠ "" := by
      rintro rfl
      cases read
    simp only [assignAddress, if_neg spelled, read, ok_then, unsigned_ok (ipv4ToInt_fits read),
      unsigned_ok fits, Option.map_some, writeAddress, addressWord_ok read]

theorem assignNumber_ok {w : Nat} {write : BitVec w → MatchCriteria → MatchCriteria}
    {number : Option Int} (proper : ProperNumber w number) (c : MatchCriteria) :
    assignNumber write number c = .ok (writeNumber write number c) := by
  cases number with
  | none => rfl
  | some v =>
    obtain ⟨nonzero, fits⟩ := proper v rfl
    simp only [assignNumber, if_neg nonzero, unsigned_ok fits, ok_then, writeNumber]

theorem writeAddress_over (order : ByteOrder) (a b : Option (String × Int)) (c : MatchCriteria) :
    writeAddress order b (writeAddress order a c) = writeAddress order (b.or a) c := by
  cases b with
  | none => rfl
  | some e => cases a <;> rfl

/-- A Match is encoded as what is left of it. -/
theorem assign_written {order : ByteOrder} {m : Match} (proper : m.given.Proper order) :
    assignMatchToObject order .empty m = .ok (criteria order m.given.written) := by
  have tunnelId : ProperNumber 64 m.tunnelId := proper.tunnelId
  have spi : ProperNumber 32 m.spi := proper.spi
  have vni : ProperNumber 32 m.geneveVni := proper.vni
  rw [assignMatchToObject, assignAddress_ok proper.source, ok_then, assignAddress_ok proper.dest,
    ok_then, assignNumber_ok tunnelId, ok_then, assignNumber_ok spi, ok_then, assignNumber_ok vni,
    writeAddress_over]
  rfl

section
variable (order : ByteOrder) (g : Given)

theorem criteria_eq :
    criteria order g =
      { ingressInterface := ""
        macMatch := none
        ipMatch := g.source.map fun e =>
          .ipv4Match ⟨addressWord order e.1, BitVec.ofInt 32 e.2, 0#32, 0#32⟩
        tunnelId := (g.tunnelId.map (BitVec.ofInt 64)).getD 0#64
        tunnelMatch :=
          (g.vni.map fun v => .geneveMatch ⟨BitVec.ofInt 32 v, none, 0#32, none⟩).or
            (g.spi.map fun v => .ipsecMatch ⟨BitVec.ofInt 32 v, 0#32⟩) } := by
  obtain ⟨source, dest, tunnelId, spi, vni⟩ := g
  cases source <;> cases tunnelId <;> cases spi <;> cases vni <;> rfl

theorem criteria_ipv4Match :
    (criteria order g).ipv4Match = (g.source.map fun e =>
      ⟨addressWord order e.1, BitVec.ofInt 32 e.2, 0#32, 0#32⟩).getD .empty := by
  rw [MatchCriteria.ipv4Match, criteria_eq]
  cases g.source <;> rfl

theorem criteria_geneveMatch :
    (criteria order g).geneveMatch =
      ⟨(g.vni.map (BitVec.ofInt 32)).getD 0#32, none, 0#32, none⟩ := by
  rw [MatchCriteria.geneveMatch, criteria_eq]
  cases g.vni <;> cases g.spi <;> rfl

/-- A VNI takes the place of an SPI, so the two are not to be given together. -/
theorem criteria_ipsecMatch (single : g.spi = none ∨ g.vni = none) :
    (criteria order g).ipsecMatch = ⟨(g.spi.map (BitVec.ofInt 32)).getD 0#32, 0#32⟩ := by
  rw [MatchCriteria.ipsecMatch, criteria_eq]
  rcases single with noSpi | noVni
  · rw [noSpi]
    cases g.vni <;> rfl
  · rw [noVni]
    cases g.spi <;> rfl

end

theorem writeAddress_reads {order : ByteOrder} {text : String} {mask v : Int}
    (read : ipv4ToInt order text = .ok v) (fits : Fits 32 mask) :
    ReadsAddress order (some (text, mask)) (addressWord order text) (BitVec.ofInt 32 mask) := by
  constructor
  · rw [read, addressWord_ok read, ofInt_toNat (ipv4ToInt_fits read)]
  · exact (ofInt_toNat fits).symm

theorem writeNumber_reads {w : Nat} {number : Option Int} (proper : ProperNumber w number) :
    ReadsNumber number ((number.map (BitVec.ofInt w)).getD 0#w) := by
  cases number with
  | none => simp [ReadsNumber]
  | some v => exact (ofInt_toNat (proper v rfl).2).symm

theorem criteria_encodes {order : ByteOrder} {g : Given} (proper : g.Proper order)
    (noDest : g.dest = none) : Encodes order g (criteria order g) where
  source := by
    rw [criteria_ipv4Match]
    cases given : g.source with
    | none => exact ⟨rfl, rfl⟩
    | some e =>
      obtain ⟨⟨v, read, _⟩, fits⟩ := proper.source e.1 e.2 given
      exact writeAddress_reads read fits
  dest := by
    rw [noDest, criteria_ipv4Match]
    cases g.source <;> exact ⟨rfl, rfl⟩
  tunnelId := by
    rw [criteria_eq]
    exact writeNumber_reads proper.tunnelId
  spi := by
    rw [criteria_ipsecMatch order g proper.single]
    exact writeNumber_reads proper.spi
  vni := by
    rw [criteria_geneveMatch]
    exact writeNumber_reads proper.vni
  addressed := by
    rw [criteria_eq, noDest]
    cases g.source <;> simp
  tunnelled := by
    rw [criteria_eq]
    cases g.vni <;> cases g.spi <;> simp
  other := by
    rw [criteria_ipsecMatch order g proper.single, criteria_geneveMatch, criteria_eq]
    exact ⟨rfl, rfl, rfl, rfl, rfl, rfl⟩

theorem written_proper {order : ByteOrder} {g : Given} (proper : g.Proper order) :
    g.written.Proper order := by
  refine ⟨?_, properAddress_none, proper.tunnelId, proper.spi, proper.vni, proper.single⟩
  intro text mask given
  rcases Option.or_eq_some_iff.mp given with fromDest | ⟨_, fromSource⟩
  · exact proper.dest text mask fromDest
  · exact proper.source text mask fromSource

theorem written_self {g : Given} (noDest : g.dest = none) : g.written = g := by
  obtain ⟨source, dest, tunnelId, spi, vni⟩ := g
  cases noDest
  rfl

theorem criteria_same {order : ByteOrder} {g h : Given} (properG : g.Proper order)
    (properH : h.Proper order) :
    criteria order g.written = criteria order h.written ↔ g.written = h.written := by
  constructor
  · intro same
    have encG := criteria_encodes (written_proper properG) rfl
    have encH := criteria_encodes (written_proper properH) rfl
    rw [same] at encG
    exact encodes_inj (written_proper properG) (written_proper properH) encG encH
  · exact congrArg (criteria order)

def Encoded (order : ByteOrder) (m : Match) : Prop :=
  ∃ c, assignMatchToObject order .empty m = .ok c ∧ Encodes order m.given c

def Distinguished (order : ByteOrder) (m n : Match) : Prop :=
  m.given ≠ n.given →
    ∀ c, assignMatchToObject order .empty m = .ok c →
      assignMatchToObject order .empty n ≠ .ok c

theorem encoded_iff {order : ByteOrder} {m : Match} (proper : m.given.Proper order) :
    Encoded order m ↔ m.destIp = none := by
  constructor
  · rintro ⟨c, built, enc⟩
    rw [assign_written proper] at built
    cases built
    have left := criteria_encodes (written_proper proper) rfl
    have whole := encodes_inj proper (written_proper proper) enc left
    exact Option.map_eq_none_iff.mp (congrArg Given.dest whole)
  · intro noDest
    have absent : m.given.dest = none := Option.map_eq_none_iff.mpr noDest
    refine ⟨_, assign_written proper, ?_⟩
    rw [written_self absent]
    exact criteria_encodes proper absent

theorem distinguished_iff {order : ByteOrder} {m n : Match} (first : m.given.Proper order)
    (second : n.given.Proper order) :
    Distinguished order m n ↔ m.given = n.given ∨ m.given.written ≠ n.given.written := by
  rw [Distinguished, assign_written first, assign_written second]
  constructor
  · intro apart
    by_cases alike : m.given = n.given
    · exact .inl alike
    · refine .inr fun same => apart alike _ rfl ?_
      rw [same]
  · rintro (alike | differ) distinct c built also
    · exact distinct alike
    · have same := Except.ok.inj (built.trans also.symm)
      exact differ ((criteria_same first second).mp same)

def hostMatch (source dest : String) : Match :=
  { Match.empty with sourceIp := some source, destIp := some dest }

def chainedMatch (tunnelId spi : Int) : Match :=
  { Match.empty with tunnelId := some tunnelId, spi := some spi }

theorem address_proper {order : ByteOrder} {text : String} {v mask : Int}
    (read : ipv4ToInt order text = .ok v) (nonzero : v ≠ 0) (fits : Fits 32 mask) :
    ProperAddress order (some (text, mask)) := by
  intro text' mask' given
  cases given
  exact ⟨⟨v, read, nonzero⟩, fits⟩

theorem number_proper {w : Nat} {number : Option Int}
    (fits : number.all fun v => v ≠ 0 ∧ Fits w v) : ProperNumber w number := by
  intro v given
  simpa [given] using fits

theorem hostMatch_proper {order : ByteOrder} {source dest : String} {v v' : Int}
    (sourceRead : ipv4ToInt order source = .ok v) (sourceNonzero : v ≠ 0)
    (destRead : ipv4ToInt order dest = .ok v') (destNonzero : v' ≠ 0) :
    (hostMatch source dest).given.Proper order := by
  have mask : Fits 32 32 := by decide
  have unset {w : Nat} : ProperNumber w none := number_proper rfl
  exact ⟨address_proper sourceRead sourceNonzero mask, address_proper destRead destNonzero mask,
    unset, unset, unset, .inl rfl⟩

theorem chainedMatch_proper {order : ByteOrder} {tunnelId spi : Int}
    (tunnelFits : tunnelId ≠ 0 ∧ Fits 64 tunnelId) (spiFits : spi ≠ 0 ∧ Fits 32 spi) :
    (chainedMatch tunnelId spi).given.Proper order := by
  refine ⟨properAddress_none, properAddress_none, number_proper ?_, number_proper ?_,
    number_proper rfl, .inr rfl⟩
  · simpa [chainedMatch, Match.given] using tunnelFits
  · simpa [chainedMatch, Match.given] using spiFits

/-- The criteria of a Match say what it gives if and only if it gives no destination, and
two that give different things are told apart if and only if they differ in the tunnel id,
the SPI, the VNI or the address that is written last. -/
theorem match_encoding_exact (order : ByteOrder) (m n : Match) (first : m.given.Proper order)
    (second : n.given.Proper order) :
    (Encoded order m ↔ m.destIp = none) ∧
    (Distinguished order m n ↔ m.given = n.given ∨ m.given.written ≠ n.given.written) ∧
    (m.destIp = none → n.destIp = none → Distinguished order m n) := by
  refine ⟨encoded_iff first, distinguished_iff first second, ?_⟩
  intro noDest noDest'
  have absent : m.given.dest = none := Option.map_eq_none_iff.mpr noDest
  have absent' : n.given.dest = none := Option.map_eq_none_iff.mpr noDest'
  rw [distinguished_iff first second, written_self absent, written_self absent']
  exact em _

theorem match_encoding_chained :
    ¬ Encoded .little (hostMatch "12.0.0.1" "12.0.0.2") ∧
    Distinguished .little (hostMatch "12.0.0.1" "12.0.0.2") (chainedMatch 20002 920) := by
  have source : ipv4ToInt .little "12.0.0.1" = .ok 16777228 := by decide
  have dest : ipv4ToInt .little "12.0.0.2" = .ok 33554444 := by decide
  have here := match_encoding_exact .little (hostMatch "12.0.0.1" "12.0.0.2")
    (chainedMatch 20002 920) (hostMatch_proper source (by decide) dest (by decide))
    (chainedMatch_proper (by decide) (by decide))
  constructor
  · exact fun encoded => absurd (here.1.mp encoded) (by decide)
  · exact here.2.1.mpr (.inr (by decide))

/-- Two sources to one destination have the same criteria. -/
theorem match_encoding_collides :
    (hostMatch "12.0.0.1" "12.0.0.2").given.Proper .little ∧
    (hostMatch "13.0.0.1" "12.0.0.2").given.Proper .little ∧
    ¬ Encoded .little (hostMatch "12.0.0.1" "12.0.0.2") ∧
    ¬ Distinguished .little (hostMatch "12.0.0.1" "12.0.0.2")
      (hostMatch "13.0.0.1" "12.0.0.2") := by
  have source : ipv4ToInt .little "12.0.0.1" = .ok 16777228 := by decide
  have source' : ipv4ToInt .little "13.0.0.1" = .ok 16777229 := by decide
  have dest : ipv4ToInt .little "12.0.0.2" = .ok 33554444 := by decide
  have first := hostMatch_proper source (by decide) dest (by decide)
  have second := hostMatch_proper source' (by decide) dest (by decide)
  refine ⟨first, second, ?_, ?_⟩
  · exact fun encoded => absurd ((encoded_iff first).mp encoded) (by decide)
  · intro apart
    rcases (distinguished_iff first second).mp apart with alike | differ
    · exact absurd alike (by decide)
    · exact differ (by decide)

theorem ofInt_ne_zero {w : Nat} {v : Int} (nonzero : v ≠ 0) (fits : Fits w v) :
    BitVec.ofInt w v ≠ 0#w := by
  intro zero
  have value := ofInt_toNat fits
  rw [zero] at value
  exact nonzero (by simpa using value.symm)

theorem criteria_upstream {order : ByteOrder} {g : Given} (proper : g.Proper order) :
    (if (criteria order g).tunnelId = 0#64 then none else some (criteria order g).tunnelId) =
      g.tunnelId.map (BitVec.ofInt 64) := by
  rw [criteria_eq]
  cases given : g.tunnelId with
  | none => rfl
  | some v =>
    obtain ⟨nonzero, fits⟩ := proper.tunnelId v given
    exact if_neg (ofInt_ne_zero nonzero fits)

theorem criteria_byIp {order : ByteOrder} {g : Given} (proper : g.Proper order) :
    (criteria order g).ipv4Match.sourceIp ≠ 0#32 ↔ g.source.isSome := by
  rw [criteria_ipv4Match]
  cases given : g.source with
  | none => exact iff_of_false (fun differ => differ rfl) (by simp)
  | some e =>
    obtain ⟨⟨v, read, nonzero⟩, _⟩ := proper.source e.1 e.2 given
    refine iff_of_true ?_ rfl
    change addressWord order e.1 ≠ 0#32
    rw [addressWord_ok read]
    exact ofInt_ne_zero nonzero (ipv4ToInt_fits read)

end SessionOffload
