import SessionOffload.TunnelValidity
import SessionOffload.Lib.Sweep

/-! print_tunnel_summary of tunnels_server.py with all it prints, and when it reports the
tunnels that are matched from a tunnel that does not exist. -/
namespace SessionOffload
open Sweep

def TunnelType.text : TunnelType → String
  | .geneveEncap => "GENEVE Encap"
  | .geneveDecap => "GENEVE Decap"
  | .ipsecDecryption => "IPSec Decryption"
  | .ipsecEncryption => "IPSEC Encryption"

def tunnelFormatted (tunnelId : Word64) (tunnelType : TunnelType) : String :=
  s!"**********\nTunnel ID: {tunnelId.toNat}\nTunnel Type: {tunnelType.text}\n**********"

def tunnelChainSeperator : String := "     ▼"

def printTunnel (tunnels : TunnelTable) (tunnelId : Word64) : Except Raised String :=
  match tunnels.get? tunnelId with
  | none => .error .keyError
  | some tunnel => .ok (tunnelFormatted tunnelId tunnel.tunnelType)

def Chain.header : Chain → List String
  | .list _ =>
    ["----------------------------------------------",
      "Following tunnels are chained to each other:",
      "----------------------------------------------"]
  | .tuple _ _ =>
    ["----------------------------------------------",
      "Following tunnels might be chained to each other, they match via tunnel",
      "and shuold match via IP as well",
      "----------------------------------------------"]

/-- One turn of `for i, tunnel in enumerate(chain)`. -/
def printChained (tunnels : TunnelTable) (chain : Chain) (entry : Word64 × Nat) :
    Except Raised (List String) := do
  let formatted ← printTunnel tunnels entry.1
  .ok [formatted, if entry.2 ≠ chain.ids.length - 1 then tunnelChainSeperator else "\n"]

def printChain (tunnels : TunnelTable) (chain : Chain) : Except Raised (List String) := do
  let lines ← chain.ids.zipIdx.mapM (printChained tunnels chain)
  .ok (chain.header ++ lines.flatten)

def saHeader : String :=
  "The following tunnels are 'stand-alone' tunnels, and not chained to any other tunnel"

/-- print_tunnel_summary with the printing, which looks the tunnels up again. -/
def printedSummary (tunnels : TunnelTable) : Except Raised (List String) := do
  let (saTunnels, tunnelsChaining) ← printTunnelSummary tunnels
  let saLines ← saTunnels.mapM (printTunnel tunnels)
  let chainLines ← tunnelsChaining.mapM (printChain tunnels)
  .ok ([saHeader] ++ saLines ++ chainLines.flatten)

/-- What the summary reads of a stored tunnel: the tunnel it is matched from, if it is from
one, and whether by IP as well. -/
structure Link where
  id : Word64
  upstream : Option Word64
  byIp : Bool
  deriving DecidableEq, Repr

def Tunnel.link (tunnelId : Word64) (tunnel : Tunnel) : Link where
  id := tunnelId
  upstream :=
    if tunnel.matchCriteria.tunnelId = 0#64 then none else some tunnel.matchCriteria.tunnelId
  byIp := tunnel.matchCriteria.ipv4Match.sourceIp ≠ 0#32

def links (tunnels : TunnelTable) : List Link := tunnels.entries.map fun e => e.2.link e.1

def Link.covers (y x : Link) : Bool := y.upstream = some x.id

/-- The tunnels that are not passed over: no tunnel examined before is matched from them. -/
def examined (tunnels : TunnelTable) : List Link := sweep Link.covers [] (links tunnels)

/-- A chain that has the id in it is due to a tunnel that is matched from another one, and is
the tunnel with the id or matched from it. -/
def touches (id : Word64) (y : Link) : Bool :=
  y.upstream.isSome && (y.id = id || y.upstream = some id)

def Dangling (tunnels : TunnelTable) (x : Link) : Prop :=
  ∃ m, x.upstream = some m ∧ m ∉ tunnels.keys

instance (tunnels : TunnelTable) (x : Link) : Decidable (Dangling tunnels x) :=
  decidable_of_iff (x.upstream.any (fun m => !tunnels.keys.contains m) = true) (by
    simp [Dangling, Option.any_eq_true])

/-- The tunnel is to be appended to the pair of a tunnel that matches by IP as well. -/
def Clash (earlier : List Link) (x : Link) : Prop :=
  ∃ m, x.upstream = some m ∧ x.byIp = false ∧
    (earlier.find? (touches m)).map Link.byIp = some true

def notExists (x : Link) (m : Word64) : Raised :=
  .tunnelValidationExcp (s!"Tunnel id {x.id.toNat} is matched traffic from " ++
    s!"tunnel id {m.toNat} which not exists")

def fault (tunnels : TunnelTable) (earlier : List Link) (x : Link) : Option Raised :=
  match x.upstream with
  | none => none
  | some m =>
    if !tunnels.keys.contains m then some (notExists x m)
    else if x.byIp = false ∧ (earlier.find? (touches m)).map Link.byIp = some true then
      some .attributeError
    else none

theorem fault_none_iff {tunnels : TunnelTable} {earlier : List Link} {x : Link} :
    fault tunnels earlier x = none ↔ ¬ Dangling tunnels x ∧ ¬ Clash earlier x := by
  unfold fault Dangling Clash
  cases x.upstream with
  | none => simp
  | some m =>
    by_cases missing : m ∈ tunnels.keys
    · simp [missing]
    · simp [missing]

theorem fault_dangling {tunnels : TunnelTable} {earlier : List Link} {x : Link}
    (dangling : Dangling tunnels x) : ∃ m, fault tunnels earlier x = some (notExists x m) := by
  obtain ⟨m, refers, missing⟩ := dangling
  refine ⟨m, ?_⟩
  simp only [fault, refers]
  rw [if_pos (by simpa using missing)]

theorem fault_clash {tunnels : TunnelTable} {earlier : List Link} {x : Link}
    (clash : Clash earlier x) (found : ¬ Dangling tunnels x) :
    fault tunnels earlier x = some .attributeError := by
  obtain ⟨m, refers, clash⟩ := clash
  have present : m ∈ tunnels.keys := by_contra fun missing => found ⟨m, refers, missing⟩
  simp only [fault, refers]
  rw [if_neg (by simpa using present), if_pos clash]

theorem quiet_at {tunnels : TunnelTable} {l pre post : List Link} {x : Link}
    (quiet : firstFault (fault tunnels) [] l = none) (split : l = pre ++ x :: post) :
    ¬ Dangling tunnels x ∧ ¬ Clash pre x :=
  fault_none_iff.mp ((firstFault_none_iff [] l).mp quiet pre x post split)

/-- The chain that `matched_tunnel_id in chain` is true of first. -/
def holder (chains : List Chain) (id : Word64) : Option Chain :=
  chains.find? fun chain => chain.ids.contains id

def Chain.isTuple : Chain → Bool
  | .list _ => false
  | .tuple _ _ => true

theorem holder_mem {chains : List Chain} {id : Word64} {chain : Chain}
    (held : holder chains id = some chain) : chain ∈ chains ∧ id ∈ chain.ids :=
  ⟨List.mem_of_find?_eq_some held, by simpa using List.find?_some held⟩

theorem unheld_iff {chains : List Chain} {id : Word64} :
    holder chains id = none ↔ ∀ chain ∈ chains, id ∉ chain.ids := by
  simp [holder]

theorem holder_append (chains : List Chain) (chain : Chain) (id : Word64) :
    holder (chains ++ [chain]) id =
      (holder chains id).or (if id ∈ chain.ids then some chain else none) := by
  simp [holder]

theorem holder_pushed {chains : List Chain} {chain found : Chain} {id : Word64}
    (held : holder (chains ++ [chain]) id = some found) :
    holder chains id = some found ∨ (holder chains id = none ∧ id ∈ chain.ids ∧ chain = found) := by
  rw [holder_append] at held
  cases old : holder chains id with
  | some first =>
    rw [old, Option.some_or] at held
    exact .inl held
  | none =>
    rw [old, Option.none_or] at held
    split at held
    · next member => exact .inr ⟨rfl, member, Option.some.inj held⟩
    · cases held

theorem holder_skip {before : List Chain} {id : Word64}
    (free : ∀ chain ∈ before, id ∉ chain.ids) (chains : List Chain) :
    holder (before ++ chains) id = holder chains id := by
  rw [holder, List.find?_append, ← holder, unheld_iff.mpr free, Option.none_or, ← holder]

theorem holder_here {chain : Chain} {id : Word64} (holds : id ∈ chain.ids) (chains : List Chain) :
    holder (chain :: chains) id = some chain :=
  List.find?_cons_of_pos (by simpa using holds)

section Grown
variable {before after : List Chain} {ids : List Word64} {m i : Word64}

theorem holder_first (free : ∀ chain ∈ before, m ∉ chain.ids) (holds : m ∈ ids) :
    holder (before ++ .list ids :: after) m = some (.list ids) :=
  (holder_skip free _).trans (holder_here holds after)

theorem holder_newcomer (unheld : holder (before ++ .list ids :: after) i = none) :
    holder (before ++ .list (ids ++ [i]) :: after) i = some (.list (ids ++ [i])) := by
  have free : ∀ chain ∈ before, i ∉ chain.ids := fun chain member =>
    unheld_iff.mp unheld chain (List.mem_append_left _ member)
  exact holder_first free (List.mem_append_right ids (List.mem_singleton_self i))

theorem holder_grown (free : ∀ chain ∈ before, m ∉ chain.ids) (holds : m ∈ ids) {id : Word64}
    (other : id ≠ i) :
    holder (before ++ .list (ids ++ [i]) :: after) id =
      (holder (before ++ .list ids :: after) id).map fun chain =>
        if chain = .list ids then .list (ids ++ [i]) else chain := by
  have same : (Chain.list (ids ++ [i])).ids.contains id = (Chain.list ids).ids.contains id := by
    simp [Chain.ids, other]
  rw [holder, holder, List.find?_append, List.find?_append, List.find?_cons, List.find?_cons, same]
  cases first : before.find? fun chain => chain.ids.contains id with
  | some chain =>
    have different : chain ≠ .list ids := by
      rintro rfl
      exact free _ (List.mem_of_find?_eq_some first) holds
    simp [different]
  | none =>
    cases here : (Chain.list ids).ids.contains id with
    | true => simp
    | false =>
      cases later : after.find? fun chain => chain.ids.contains id with
      | none => simp
      | some chain =>
        have different : chain ≠ .list ids := by
          rintro rfl
          have there := List.find?_some later
          rw [here] at there
          cases there
        simp [different]

end Grown

section Appended
variable {m : Word64} {before : List Chain}

theorem appendChain_skip (free : ∀ chain ∈ before, m ∉ chain.ids) (i : Word64)
    (chains : List Chain) : appendChain m i (before ++ chains) =
      (appendChain m i chains).map (Option.map (before ++ ·)) := by
  induction before with
  | nil =>
    rw [List.nil_append]
    cases appendChain m i chains with
    | error e => rfl
    | ok appended => cases appended <;> rfl
  | cons chain before ih =>
    have absent : ¬ chain.ids.contains m = true := by
      simpa using free chain List.mem_cons_self
    rw [List.cons_append, appendChain.eq_def]
    simp only [if_neg absent, ih fun c later => free c (.tail chain later)]
    cases appendChain m i chains with
    | error e => rfl
    | ok appended => cases appended <;> rfl

theorem appendChain_unheld {chains : List Chain} (unheld : holder chains m = none)
    (i : Word64) : appendChain m i chains = .ok none := by
  have skipped := appendChain_skip (unheld_iff.mp unheld) i []
  rwa [List.append_nil] at skipped

theorem holder_split {chains : List Chain} {chain : Chain}
    (held : holder chains m = some chain) : ∃ before after,
      chains = before ++ chain :: after ∧ ∀ c ∈ before, m ∉ c.ids := by
  obtain ⟨_, before, after, split, free⟩ := List.find?_eq_some_iff_append.mp held
  exact ⟨before, after, split, fun c member => by simpa using free c member⟩

theorem appendChain_list (free : ∀ chain ∈ before, m ∉ chain.ids) {ids : List Word64}
    (holds : m ∈ ids) (i : Word64) (after : List Chain) :
    appendChain m i (before ++ .list ids :: after) =
      .ok (some (before ++ .list (ids ++ [i]) :: after)) := by
  rw [appendChain_skip free, appendChain, if_pos (by simpa [Chain.ids] using holds)]
  rfl

theorem appendChain_tuple (free : ∀ chain ∈ before, m ∉ chain.ids) {a b : Word64}
    (holds : m ∈ (Chain.tuple a b).ids) (i : Word64) (after : List Chain) :
    appendChain m i (before ++ .tuple a b :: after) = .error .attributeError := by
  rw [appendChain_skip free, appendChain, if_pos (by simpa using holds)]
  rfl

end Appended

inductive SummaryEffect (x : Link) (s : Summary) : Summary → Prop
  | alone (lone : x.upstream = none) : SummaryEffect x s
      ⟨s.saTunnels ++ [x.id], s.tunnelsChaining, s.scannedTunnels ++ [x.id]⟩
  | paired {m : Word64} (refers : x.upstream = some m) (byIp : x.byIp = true) :
      SummaryEffect x s
        ⟨s.saTunnels.erase m, s.tunnelsChaining ++ [.tuple m x.id],
          s.scannedTunnels ++ [x.id] ++ [m]⟩
  | appended {m : Word64} {before after : List Chain} {ids : List Word64}
      (refers : x.upstream = some m) (onlyTunnel : x.byIp = false)
      (split : s.tunnelsChaining = before ++ .list ids :: after)
      (free : ∀ chain ∈ before, m ∉ chain.ids) (holds : m ∈ ids) :
      SummaryEffect x s
        ⟨s.saTunnels.erase m, before ++ .list (ids ++ [x.id]) :: after,
          s.scannedTunnels ++ [x.id]⟩
  | started {m : Word64} (refers : x.upstream = some m) (onlyTunnel : x.byIp = false)
      (unheld : holder s.tunnelsChaining m = none) :
      SummaryEffect x s
        ⟨s.saTunnels.erase m, s.tunnelsChaining ++ [.list [m, x.id]],
          s.scannedTunnels ++ [x.id] ++ [m]⟩

structure Tracks (E : List Link) (s : Summary) : Prop where
  scanned : ∀ id, id ∈ s.scannedTunnels ↔ ∃ y ∈ E, y.id = id ∨ y.upstream = some id
  kinds : ∀ id, (holder s.tunnelsChaining id).map Chain.isTuple =
    (E.find? (touches id)).map Link.byIp
  alone : ∀ id, id ∈ s.saTunnels ↔
    (∃ y ∈ E, y.id = id ∧ y.upstream = none) ∧ ∀ y ∈ E, y.upstream ≠ some id
  distinct : s.saTunnels.Nodup

theorem Tracks.held_iff {E : List Link} {s : Summary} (tracks : Tracks E s) {id : Word64} :
    holder s.tunnelsChaining id = none ↔ E.find? (touches id) = none := by
  rw [← Option.map_eq_none_iff (f := Chain.isTuple), tracks.kinds, Option.map_eq_none_iff]

theorem clash_iff {E : List Link} {s : Summary} (tracks : Tracks E s) {x : Link} {m : Word64}
    (refers : x.upstream = some m) : Clash E x ↔
      x.byIp = false ∧ (holder s.tunnelsChaining m).map Chain.isTuple = some true := by
  rw [tracks.kinds]
  constructor
  · rintro ⟨m', same, clash⟩
    rw [refers, Option.some.injEq] at same
    exact same ▸ clash
  · exact fun clash => ⟨m, refers, clash⟩

theorem summaryTurn_effect (tunnels : TunnelTable) {E : List Link} {s : Summary}
    (tracks : Tracks E s) (tunnelId : Word64) (tunnel : Tunnel)
    (unscanned : tunnelId ∉ s.scannedTunnels) :
    Ends (fault tunnels E (tunnel.link tunnelId)) (summaryTurn tunnels tunnelId tunnel s)
      (SummaryEffect (tunnel.link tunnelId) s) := by
  have turn : ¬ s.scannedTunnels.contains tunnelId = true := by
    simpa using unscanned
  rw [summaryTurn, if_neg turn]
  by_cases lone : tunnel.matchCriteria.tunnelId = 0#64
  · have upstream : (tunnel.link tunnelId).upstream = none := if_pos lone
    simp only [fault, upstream, if_pos lone]
    exact ⟨_, rfl, .alone upstream⟩
  have refers : (tunnel.link tunnelId).upstream = some tunnel.matchCriteria.tunnelId :=
    if_neg lone
  by_cases missing : tunnel.matchCriteria.tunnelId ∉ tunnels.keys
  · have unknown : (!tunnels.keys.contains tunnel.matchCriteria.tunnelId) = true := by
      simpa using missing
    simp only [fault, refers, if_neg lone, if_pos unknown]
    rfl
  have found : ¬ Dangling tunnels (tunnel.link tunnelId) := by
    rintro ⟨m, same, dangles⟩
    rw [refers, Option.some.injEq] at same
    exact missing (same ▸ dangles)
  simp only [if_neg lone, if_neg (show ¬ (!tunnels.keys.contains _) = true by simpa using missing)]
  have clashes := clash_iff tracks refers
  by_cases ip : tunnel.matchCriteria.ipv4Match.sourceIp ≠ 0#32
  · have byIp : (tunnel.link tunnelId).byIp = true := decide_eq_true ip
    have quiet : fault tunnels E (tunnel.link tunnelId) = none :=
      fault_none_iff.mpr ⟨found, fun clash => by simp [byIp, clashes] at clash⟩
    simp only [quiet, if_pos ip]
    exact ⟨_, rfl, .paired refers byIp⟩
  have onlyTunnel : (tunnel.link tunnelId).byIp = false := decide_eq_false ip
  simp only [if_neg ip]
  cases held : holder s.tunnelsChaining tunnel.matchCriteria.tunnelId with
  | none =>
    have quiet : fault tunnels E (tunnel.link tunnelId) = none :=
      fault_none_iff.mpr ⟨found, fun clash => by simp [clashes, held] at clash⟩
    simp only [quiet, appendChain_unheld held]
    exact ⟨_, rfl, .started refers onlyTunnel held⟩
  | some chain =>
    obtain ⟨before, after, split, free⟩ := holder_split held
    cases chain with
    | tuple a b =>
      have holds := (holder_mem held).2
      have raised : fault tunnels E (tunnel.link tunnelId) = some .attributeError :=
        fault_clash (clashes.mpr ⟨onlyTunnel, by rw [held]; rfl⟩) found
      simp only [raised, split, appendChain_tuple free holds]
      rfl
    | list ids =>
      have holds : tunnel.matchCriteria.tunnelId ∈ ids := (holder_mem held).2
      have quiet : fault tunnels E (tunnel.link tunnelId) = none :=
        fault_none_iff.mpr ⟨found, fun clash => by simp [clashes, held, Chain.isTuple] at clash⟩
      simp only [quiet]
      refine ⟨_, ?_, .appended refers onlyTunnel split free holds⟩
      simp only [split, appendChain_list free holds]
      rfl

def Fresh (E : List Link) (x : Link) : Prop := ∀ y ∈ E, y.id ≠ x.id ∧ y.upstream ≠ some x.id

theorem touches_iff {id : Word64} {y : Link} :
    touches id y = true ↔ (∃ m, y.upstream = some m) ∧ (y.id = id ∨ y.upstream = some id) := by
  simp [touches, Option.isSome_iff_exists]

theorem Tracks.held_touched {E : List Link} {s : Summary} (tracks : Tracks E s) {id : Word64}
    {chain : Chain} (member : chain ∈ s.tunnelsChaining) (holds : id ∈ chain.ids) :
    ∃ y ∈ E, touches id y = true := by
  by_contra untouched
  have none_there : E.find? (touches id) = none :=
    List.find?_eq_none.mpr fun y there touched => untouched ⟨y, there, touched⟩
  exact unheld_iff.mp (tracks.held_iff.mpr none_there) chain member holds

theorem fresh_untouched {E : List Link} {x : Link} (fresh : Fresh E x) :
    E.find? (touches x.id) = none := by
  refine List.find?_eq_none.mpr fun y member touched => ?_
  rcases (touches_iff.mp touched).2 with same | upstream
  · exact (fresh y member).1 same
  · exact (fresh y member).2 upstream

section Step
variable {E : List Link} {x : Link} {s t : Summary}

theorem effect_sa (effect : SummaryEffect x s t) : t.saTunnels =
    match x.upstream with
    | none => s.saTunnels ++ [x.id]
    | some m => s.saTunnels.erase m := by
  cases effect with
  | alone lone => rw [lone]
  | paired refers => rw [refers]
  | appended refers => rw [refers]
  | started refers => rw [refers]

theorem effect_scanned (tracks : Tracks E s) (effect : SummaryEffect x s t) (id : Word64) :
    id ∈ t.scannedTunnels ↔ id ∈ s.scannedTunnels ∨ x.id = id ∨ x.upstream = some id := by
  cases effect with
  | alone lone => simp [lone, eq_comm]
  | paired refers => simp [refers, eq_comm]
  | started refers => simp [refers, eq_comm]
  | appended refers _ split _ holds =>
    -- the tunnel it is matched from is in a chain, so it was marked before
    have chained : Chain.list _ ∈ s.tunnelsChaining :=
      split ▸ List.mem_append_right _ List.mem_cons_self
    obtain ⟨y, member, touched⟩ := tracks.held_touched chained holds
    have marked := (tracks.scanned _).mpr ⟨y, member, (touches_iff.mp touched).2⟩
    constructor
    · simp only [List.mem_append, List.mem_singleton]
      tauto
    · rw [refers]
      rintro (old | rfl | same)
      · exact List.mem_append_left _ old
      · simp
      · exact List.mem_append_left _ (Option.some.inj same ▸ marked)

theorem push_kinds (tracks : Tracks E s) {m : Word64} (refers : x.upstream = some m)
    (chain : Chain) (pair : chain.ids = [m, x.id]) (kind : chain.isTuple = x.byIp) (id : Word64) :
    (holder (s.tunnelsChaining ++ [chain]) id).map Chain.isTuple =
      ((E ++ [x]).find? (touches id)).map Link.byIp := by
  have same : id ∈ chain.ids ↔ touches id x = true := by
    simp only [pair, List.mem_cons, List.not_mem_nil, or_false, touches_iff, refers,
      Option.some.injEq, exists_eq', true_and]
    constructor <;> rintro (rfl | rfl) <;> simp
  rw [holder_append, List.find?_append, List.find?_singleton, Option.map_or, Option.map_or,
    tracks.kinds]
  congr 1
  by_cases there : id ∈ chain.ids
  · simp [there, same.mp there, kind]
  · simp [there, mt same.mpr there]

theorem effect_kinds (tracks : Tracks E s) (fresh : Fresh E x) (effect : SummaryEffect x s t)
    (id : Word64) : (holder t.tunnelsChaining id).map Chain.isTuple =
      ((E ++ [x]).find? (touches id)).map Link.byIp := by
  cases effect with
  | alone lone =>
    simp only [List.find?_append, List.find?_singleton, touches, lone]
    simpa using tracks.kinds id
  | paired refers byIp => exact push_kinds tracks refers (.tuple _ _) rfl byIp.symm id
  | started refers onlyTunnel => exact push_kinds tracks refers (.list _) rfl onlyTunnel.symm id
  | @appended m before after ids refers onlyTunnel split free holds =>
    have kinds := tracks.kinds
    rw [split] at kinds
    by_cases here : id = x.id
    · have unheld := tracks.held_iff.mpr (fresh_untouched fresh)
      rw [split] at unheld
      rw [here, holder_newcomer unheld, List.find?_append, fresh_untouched fresh]
      simp [touches, refers, Chain.isTuple, onlyTunnel]
    · rw [holder_grown free holds here, Option.map_map, List.find?_append, Option.map_or, ← kinds]
      have same_kind : (Chain.isTuple ∘ fun chain =>
          if chain = .list ids then .list (ids ++ [x.id]) else chain) = Chain.isTuple := by
        funext chain
        rw [Function.comp_apply]
        split
        · next list => rw [list]; rfl
        · rfl
      rw [same_kind]
      by_cases matched : m = id
      · rw [← matched, holder_first free holds]
        rfl
      · have untouched : touches id x = false := by
          simp [touches, refers, matched, Ne.symm here]
        simp [untouched]

theorem effect_alone (tracks : Tracks E s) (fresh : Fresh E x) (effect : SummaryEffect x s t)
    (id : Word64) : id ∈ t.saTunnels ↔
      (∃ y ∈ E ++ [x], y.id = id ∧ y.upstream = none) ∧ ∀ y ∈ E ++ [x], y.upstream ≠ some id := by
  have some_one : (∃ y ∈ E ++ [x], y.id = id ∧ y.upstream = none) ↔
      (∃ y ∈ E, y.id = id ∧ y.upstream = none) ∨ (x.id = id ∧ x.upstream = none) := by
    simp [or_and_right, exists_or]
  have each_one : (∀ y ∈ E ++ [x], y.upstream ≠ some id) ↔
      (∀ y ∈ E, y.upstream ≠ some id) ∧ x.upstream ≠ some id := by
    simp [or_imp, forall_and]
  rw [some_one, each_one, effect_sa effect]
  cases upstream : x.upstream with
  | none =>
    rw [List.mem_append, List.mem_singleton, tracks.alone]
    constructor
    · rintro (⟨there, free⟩ | rfl)
      · exact ⟨.inl there, free, nofun⟩
      · exact ⟨.inr ⟨rfl, rfl⟩, fun y member => (fresh y member).2, nofun⟩
    · rintro ⟨there | ⟨rfl, _⟩, free, _⟩
      · exact .inl ⟨there, free⟩
      · exact .inr rfl
  | some m =>
    rw [tracks.distinct.mem_erase_iff, tracks.alone]
    constructor
    · rintro ⟨other, there, free⟩
      exact ⟨.inl there, free, fun same => other (Option.some.inj same).symm⟩
    · rintro ⟨there | ⟨_, impossible⟩, free, other⟩
      · exact ⟨fun same => other (congrArg some same.symm), there, free⟩
      · cases impossible

theorem effect_saDistinct (tracks : Tracks E s) (fresh : Fresh E x) (effect : SummaryEffect x s t) :
    t.saTunnels.Nodup := by
  rw [effect_sa effect]
  cases x.upstream with
  | some m => exact tracks.distinct.erase m
  | none =>
    rw [← List.concat_eq_append]
    refine tracks.distinct.concat fun member => ?_
    obtain ⟨⟨y, old, same, _⟩, _⟩ := (tracks.alone x.id).mp member
    exact (fresh y old).1 same

theorem effect_tracks (tracks : Tracks E s) (fresh : Fresh E x) (effect : SummaryEffect x s t) :
    Tracks (E ++ [x]) t where
  scanned id := by
    rw [effect_scanned tracks effect, tracks.scanned]
    simp only [List.mem_append, List.mem_singleton, or_and_right, exists_or, exists_eq_left]
  kinds := effect_kinds tracks fresh effect
  alone := effect_alone tracks fresh effect
  distinct := effect_saDistinct tracks fresh effect

end Step

theorem summaryLoop_run (tunnels : TunnelTable) (l : List (Word64 × Tunnel)) (s : Summary) :
    summaryLoop tunnels l s = run (fun e => summaryTurn tunnels e.1 e.2) l s := by
  induction l generalizing s with
  | nil => rfl
  | cons e rest ih =>
    rw [run, summaryLoop]
    exact congrArg _ (funext ih)

theorem link_key {tunnels : TunnelTable} {x : Link} (member : x ∈ links tunnels) :
    x.id ∈ tunnels.keys := by
  obtain ⟨e, entry, rfl⟩ := List.mem_map.mp member
  exact List.mem_map_of_mem entry

theorem examined_sublist {tunnels : TunnelTable} : (examined tunnels).Sublist (links tunnels) :=
  sweep_sublist [] _

theorem examined_links {tunnels : TunnelTable} {x : Link} (member : x ∈ examined tunnels) :
    x ∈ links tunnels := examined_sublist.subset member

theorem links_distinct (tunnels : TunnelTable) :
    (links tunnels).Pairwise fun y x => y.id ≠ x.id :=
  List.pairwise_map.mpr (List.pairwise_map.mp tunnels.distinct)

/-- The scan examines the tunnels one after the other, until the first one that raises, and
keeps what every turn keeps. -/
theorem summary_scan (tunnels : TunnelTable) (I : List Link → Summary → Prop)
    (start : I [] ⟨[], [], []⟩)
    (step : ∀ E s x t, Tracks E s → I E s → Fresh E x → SummaryEffect x s t → I (E ++ [x]) t) :
    Ends (firstFault (fault tunnels) [] (examined tunnels))
      (summaryLoop tunnels tunnels.entries ⟨[], [], []⟩)
      (fun t => Tracks (examined tunnels) t ∧ I (examined tunnels) t) := by
  have empty : Tracks [] ⟨[], [], []⟩ :=
    ⟨by simp, fun _ => rfl, by simp, List.nodup_nil⟩
  have covered : ∀ E s (e : Word64 × Tunnel), Tracks E s ∧ I E s →
      E.any (Link.covers · (e.2.link e.1)) = true → summaryTurn tunnels e.1 e.2 s = .ok s := by
    rintro E s e ⟨tracks, _⟩ covered
    obtain ⟨y, member, covers⟩ := List.any_eq_true.mp covered
    have marked := (tracks.scanned e.1).mpr ⟨y, member, .inr (of_decide_eq_true covers)⟩
    rw [summaryTurn, if_pos (by simpa using marked)]
  have takes : ∀ E s (e : Word64 × Tunnel), Tracks E s ∧ I E s →
      (∀ y ∈ E, y.id ≠ (e.2.link e.1).id) → (∀ y ∈ E, y.covers (e.2.link e.1) = false) →
      Ends (fault tunnels E (e.2.link e.1)) (summaryTurn tunnels e.1 e.2 s)
        (fun t => Tracks (E ++ [e.2.link e.1]) t ∧ I (E ++ [e.2.link e.1]) t) := by
    rintro E s e ⟨tracks, kept⟩ apart uncovered
    have fresh : Fresh E (e.2.link e.1) := fun y member =>
      ⟨apart y member, of_decide_eq_false (uncovered y member)⟩
    have unscanned : e.1 ∉ s.scannedTunnels := by
      intro marked
      obtain ⟨y, member, same | upstream⟩ := (tracks.scanned e.1).mp marked
      · exact (fresh y member).1 same
      · exact (fresh y member).2 upstream
    have turn := summaryTurn_effect tunnels tracks e.1 e.2 unscanned
    cases raised : fault tunnels E (e.2.link e.1) with
    | some e' => exact turn.failed raised
    | none =>
      obtain ⟨t, done, effect⟩ := turn.done raised
      exact ⟨t, done, effect_tracks tracks fresh effect, step E s _ t tracks kept fresh effect⟩
  rw [summaryLoop_run]
  exact run_sweep _ (fault tunnels) (fun y x => y.id ≠ x.id) (fun E s => Tracks E s ∧ I E s)
    covered takes tunnels.entries [] ⟨[], [], []⟩ ⟨empty, start⟩
    (fun _ member => absurd member List.not_mem_nil) (links_distinct tunnels)

section Printing
variable {tunnels : TunnelTable}

theorem mapM_ok {α β : Type} {f : α → Except Raised β} {l : List α}
    (each : ∀ a ∈ l, ∃ b, f a = .ok b) : ∃ bs, l.mapM f = .ok bs := by
  induction l with
  | nil => exact ⟨[], rfl⟩
  | cons a l ih =>
    obtain ⟨b, first⟩ := each a List.mem_cons_self
    obtain ⟨bs, others⟩ := ih fun c later => each c (.tail a later)
    rw [List.mapM_cons, first, others]
    exact ⟨b :: bs, rfl⟩

theorem printTunnel_ok {id : Word64} (known : id ∈ tunnels.keys) :
    ∃ line, printTunnel tunnels id = .ok line := by
  rw [printTunnel]
  cases found : tunnels.get? id with
  | none => exact absurd known (Dict.get?_eq_none_iff.mp found)
  | some tunnel => exact ⟨_, rfl⟩

theorem printChain_ok {chain : Chain} (known : ∀ id ∈ chain.ids, id ∈ tunnels.keys) :
    ∃ lines, printChain tunnels chain = .ok lines := by
  obtain ⟨lines, printed⟩ := mapM_ok fun entry (member : entry ∈ chain.ids.zipIdx) => by
    obtain ⟨line, printed⟩ := printTunnel_ok (known entry.1 (List.fst_mem_of_mem_zipIdx member))
    show ∃ lines, printChained tunnels chain entry = .ok lines
    rw [printChained, printed]
    exact ⟨_, rfl⟩
  rw [printChain, printed]
  exact ⟨_, rfl⟩

end Printing

/-- The tunnels the summary looks up while it prints are in the table, so the scan decides
what is raised. -/
theorem printedSummary_ends (tunnels : TunnelTable) :
    Ends (firstFault (fault tunnels) [] (examined tunnels)) (printedSummary tunnels)
      (fun _ => True) := by
  have scan := summary_scan tunnels (fun _ _ => True) trivial fun _ _ _ _ _ _ _ _ => trivial
  cases first : firstFault (fault tunnels) [] (examined tunnels) with
  | some e =>
    rw [printedSummary, printTunnelSummary, scan.failed first]
    rfl
  | none =>
    obtain ⟨t, ran, tracks, _⟩ := scan.done first
    have known : ∀ y ∈ examined tunnels, y.id ∈ tunnels.keys := fun y there =>
      link_key (examined_links there)
    have found : ∀ y ∈ examined tunnels, ¬ Dangling tunnels y := by
      intro y there
      obtain ⟨pre, post, split⟩ := List.append_of_mem there
      exact (quiet_at first split).1
    obtain ⟨saLines, alone⟩ := mapM_ok fun id (member : id ∈ t.saTunnels) => by
      obtain ⟨⟨y, there, same, _⟩, _⟩ := (tracks.alone id).mp member
      exact printTunnel_ok (same ▸ known y there)
    obtain ⟨chainLines, chained⟩ := mapM_ok fun chain (member : chain ∈ t.tunnelsChaining) => by
      refine printChain_ok (fun id holds => ?_ : ∀ id ∈ chain.ids, id ∈ tunnels.keys)
      obtain ⟨y, there, touched⟩ := tracks.held_touched member holds
      rcases (touches_iff.mp touched).2 with same | upstream
      · exact same ▸ known y there
      · exact by_contra fun missing => found y there ⟨id, upstream, missing⟩
    rw [printedSummary, printTunnelSummary, ran]
    refine ⟨[saHeader] ++ saLines ++ chainLines.flatten, ?_, trivial⟩
    change (t.saTunnels.mapM (printTunnel tunnels) >>= fun saLines =>
      t.tunnelsChaining.mapM (printChain tunnels) >>= fun chainLines =>
        .ok ([saHeader] ++ saLines ++ chainLines.flatten)) = _
    rw [alone, chained]
    rfl

theorem printedSummary_raises (tunnels : TunnelTable) (e : Raised) :
    printedSummary tunnels = .error e ↔ printTunnelSummary tunnels = .error e := by
  have printed := printedSummary_ends tunnels
  have scan := summary_scan tunnels (fun _ _ => True) trivial fun _ _ _ _ _ _ _ _ => trivial
  cases first : firstFault (fault tunnels) [] (examined tunnels) with
  | some raised =>
    rw [printed.failed first, printTunnelSummary, scan.failed first]
    constructor
    · rintro ⟨⟩
      rfl
    · rintro ⟨⟩
      rfl
  | none =>
    obtain ⟨lines, done, _⟩ := printed.done first
    obtain ⟨t, ran, _⟩ := scan.done first
    rw [done, printTunnelSummary, ran]
    exact iff_of_false nofun nofun

def FindsDangling (tunnels : TunnelTable) : Prop :=
  ((∃ message, printedSummary tunnels = .error (.tunnelValidationExcp message)) ↔
    ∃ x ∈ links tunnels, Dangling tunnels x) ∧
  ∀ e, printedSummary tunnels = .error e → ∃ message, e = .tunnelValidationExcp message

/-- Either no tunnel dangles and no clash is reached, or a dangling tunnel is reached before any
clash. -/
def ReachesDangling (tunnels : TunnelTable) : Prop :=
  (∀ x ∈ links tunnels, ¬ Dangling tunnels x) ∧
      (∀ pre x post, examined tunnels = pre ++ x :: post → ¬ Clash pre x) ∨
    ∃ pre x post, examined tunnels = pre ++ x :: post ∧ Dangling tunnels x ∧
      ∀ before y after, pre = before ++ y :: after → ¬ Clash before y

theorem firstFault_kind {tunnels : TunnelTable} {e : Raised}
    (first : firstFault (fault tunnels) [] (examined tunnels) = some e) :
    ∃ pre x post, examined tunnels = pre ++ x :: post ∧
      firstFault (fault tunnels) [] pre = none ∧
      (Dangling tunnels x ∧ (∃ m, e = notExists x m) ∨
        ¬ Dangling tunnels x ∧ Clash pre x ∧ e = .attributeError) := by
  obtain ⟨pre, x, post, split, raised, quiet⟩ := firstFault_some first
  refine ⟨pre, x, post, split, quiet, ?_⟩
  rw [List.nil_append] at raised
  by_cases dangling : Dangling tunnels x
  · obtain ⟨m, reported⟩ : ∃ m, fault tunnels pre x = some (notExists x m) :=
      fault_dangling dangling
    rw [reported, Option.some.injEq] at raised
    exact .inl ⟨dangling, m, raised.symm⟩
  · have clash : Clash pre x := by
      by_contra none_there
      rw [fault_none_iff.mpr ⟨dangling, none_there⟩] at raised
      cases raised
    rw [fault_clash clash dangling, Option.some.injEq] at raised
    exact .inr ⟨dangling, clash, raised.symm⟩

theorem reached_first {tunnels : TunnelTable} {pre post : List Link} {x : Link}
    (split : examined tunnels = pre ++ x :: post) (dangling : Dangling tunnels x)
    (quiet : ∀ before y after, pre = before ++ y :: after → ¬ Clash before y) :
    ∃ y m, firstFault (fault tunnels) [] (examined tunnels) = some (notExists y m) := by
  cases first : firstFault (fault tunnels) [] (examined tunnels) with
  | none =>
    exact absurd dangling (quiet_at first split).1
  | some e =>
    obtain ⟨pre', y, post', split', quiet', ⟨_, m, rfl⟩ | ⟨found, clash, _⟩⟩ :=
      firstFault_kind first
    · exact ⟨y, m, rfl⟩
    exfalso
    rw [split] at split'
    rcases List.append_eq_append_iff.mp split' with
      ⟨between, later, meet⟩ | ⟨between, earlier, meet⟩
    · cases between with
      | nil => exact found ((List.cons.inj meet).1 ▸ dangling)
      | cons z between =>
        exact (quiet_at quiet' (later.trans (by rw [(List.cons.inj meet).1]))).1 dangling
    · cases between with
      | nil => exact found ((List.cons.inj meet).1 ▸ dangling)
      | cons z between =>
        exact quiet pre' y between (by rw [earlier, (List.cons.inj meet).1]) clash

/-- The summary meets what is asked of it exactly when no clash comes in the way. -/
theorem dangling_exact (tunnels : TunnelTable) :
    FindsDangling tunnels ↔ ReachesDangling tunnels := by
  have printed := printedSummary_ends tunnels
  cases first : firstFault (fault tunnels) [] (examined tunnels) with
  | none =>
    obtain ⟨lines, printed, _⟩ := printed.done first
    constructor
    · intro finds
      refine .inl ⟨fun x member dangling => ?_, fun pre x post split => (quiet_at first split).2⟩
      obtain ⟨message, raised⟩ := finds.1.mpr ⟨x, member, dangling⟩
      rw [printed] at raised
      cases raised
    · rintro (⟨found, _⟩ | ⟨pre, x, post, split, dangling, _⟩)
      · refine ⟨⟨fun ⟨message, raised⟩ => ?_, fun ⟨x, member, dangling⟩ =>
          absurd dangling (found x member)⟩, fun e raised => ?_⟩
        · rw [printed] at raised
          cases raised
        · rw [printed] at raised
          cases raised
      · exact absurd dangling (quiet_at first split).1
  | some e =>
    have raised := printed.failed first
    obtain ⟨pre, x, post, split, quiet, ⟨dangling, m, rfl⟩ | ⟨_, clash, rfl⟩⟩ :=
      firstFault_kind first
    · have member : x ∈ links tunnels :=
        examined_links (split ▸ List.mem_append_right _ List.mem_cons_self)
      refine iff_of_true ⟨⟨fun _ => ⟨x, member, dangling⟩, fun _ => ⟨_, raised⟩⟩, fun e' also => ?_⟩
        (.inr ⟨pre, x, post, split, dangling, fun before y after earlier => ?_⟩)
      · rw [raised, Except.error.injEq] at also
        exact ⟨_, also.symm⟩
      · exact (quiet_at quiet earlier).2
    · refine iff_of_false (fun finds => ?_) ?_
      · obtain ⟨message, impossible⟩ := finds.2 _ raised
        cases impossible
      · rintro (⟨_, quiet⟩ | ⟨pre', y, post', split', dangling, quiet'⟩)
        · exact quiet pre x post split clash
        · obtain ⟨z, m, reported⟩ := reached_first split' dangling quiet'
          rw [first] at reported
          cases reported

def decapTunnel (tunnelId matchedTunnelId : Word64) (sourceIp : Word32) : Word64 × Tunnel :=
  (tunnelId,
    { tunnelProto :=
        { tunnelId := tunnelId
          operation := operationCreate
          matchCriteria :=
            { MatchCriteria.empty with
              tunnelId := matchedTunnelId
              ipMatch := some (.ipv4Match { IPV4Match.empty with sourceIp := sourceIp }) }
          nextAction := 0#32
          tunnel := some (.geneve ⟨some .geneveDecap⟩) }
      tunnelId := tunnelId
      tunnelType := .geneveDecap
      counters := zeroTunnelCounters })

/-- The second tunnel is in the chain of the first one before it is reached. -/
def missedTable : TunnelTable :=
  ⟨[decapTunnel 1#64 2#64 0#32, decapTunnel 2#64 3#64 0#32], by decide⟩

/-- One tunnel is matched from by a tunnel that matches by IP as well and by one that does not. -/
def clashTable : TunnelTable :=
  ⟨[decapTunnel 1#64 0#64 0#32, decapTunnel 2#64 1#64 167772161#32, decapTunnel 3#64 1#64 0#32],
    by decide⟩

theorem dangling_missed : ¬ FindsDangling missedTable ∧ ¬ FindsDangling clashTable := by
  constructor
  · intro finds
    obtain ⟨message, raised⟩ :=
      finds.1.mpr ⟨⟨2#64, some 3#64, false⟩, by decide, 3#64, rfl, by decide⟩
    obtain ⟨lines, printed, _⟩ := (printedSummary_ends missedTable).done (by decide)
    rw [printed] at raised
    cases raised
  · intro finds
    obtain ⟨message, impossible⟩ :=
      finds.2 .attributeError ((printedSummary_ends clashTable).failed (by decide))
    cases impossible

end SessionOffload
