import Mathlib.Logic.Relation
import SessionOffload.SummaryScan

/-! The chains print_tunnel_summary puts together, against the references between the tunnels. -/
namespace SessionOffload
open Sweep

/-- Tunnel b is matched from tunnel a. -/
def Refers (l : List Link) (b a : Word64) : Prop := ∃ y ∈ l, y.id = b ∧ y.upstream = some a

/-- Tunnel b is printed right after tunnel a in a chain. -/
def Follows (chains : List Chain) (a b : Word64) : Prop := ∃ chain ∈ chains, [a, b] <:+: chain.ids

def Acyclic (l : List Link) : Prop := ∀ id, ¬ Relation.TransGen (Refers l) id id

theorem refers_append {E : List Link} {x : Link} {a b : Word64} :
    Refers (E ++ [x]) b a ↔ Refers E b a ∨ (x.id = b ∧ x.upstream = some a) := by
  simp [Refers, or_and_right, exists_or]

theorem follows_append {chains : List Chain} {chain : Chain} {a b : Word64} :
    Follows (chains ++ [chain]) a b ↔ Follows chains a b ∨ [a, b] <:+: chain.ids := by
  simp [Follows, or_and_right, exists_or]

theorem pair_infix_concat {ids : List Word64} {i a b : Word64} :
    [a, b] <:+: ids ++ [i] ↔ [a, b] <:+: ids ∨ (ids.getLast? = some a ∧ b = i) := by
  have suffix : [a, b] <:+ ids ++ [i] ↔ ids.getLast? = some a ∧ b = i := by
    rw [List.suffix_concat_iff, ← List.singleton_suffix_iff_getLast?_eq_some]
    constructor
    · rintro (impossible | ⟨t, same, ends⟩)
      · cases impossible
      · obtain ⟨rfl, last⟩ := List.append_inj' (show [a] ++ [b] = t ++ [i] from same) rfl
        exact ⟨ends, (List.cons.inj last).1⟩
    · rintro ⟨ends, rfl⟩
      exact .inr ⟨[a], rfl, ends⟩
  rw [List.infix_concat_iff, suffix, or_comm]

theorem pair_infix_pair {m i a b : Word64} : [a, b] <:+: [m, i] ↔ a = m ∧ b = i := by
  rw [show [m, i] = [m] ++ [i] from rfl, pair_infix_concat]
  constructor
  · rintro (long | ⟨last, rfl⟩)
    · exact absurd long.length_le (by simp)
    · exact ⟨(Option.some.inj last).symm, rfl⟩
  · rintro ⟨rfl, rfl⟩
    exact .inr ⟨rfl, rfl⟩

theorem follows_grown {before after : List Chain} {ids : List Word64} {i a b : Word64} :
    Follows (before ++ .list (ids ++ [i]) :: after) a b ↔
      Follows (before ++ .list ids :: after) a b ∨ (ids.getLast? = some a ∧ b = i) := by
  have grown : [a, b] <:+: (Chain.list (ids ++ [i])).ids ↔
      [a, b] <:+: (Chain.list ids).ids ∨ (ids.getLast? = some a ∧ b = i) := pair_infix_concat
  simp only [Follows, List.mem_append, List.mem_cons, or_and_right, exists_or, exists_eq_left,
    grown]
  rw [@or_right_comm ([a, b] <:+: (Chain.list ids).ids), or_assoc, or_assoc, or_assoc]

def Single (l : List Link) : Prop :=
  l.Pairwise fun y x => y.byIp = false → x.byIp = false → y.upstream = x.upstream →
    y.upstream = none

/-- A chain that grows from m ends in m as long as nothing was appended for m. -/
def Tails (E : List Link) (chains : List Chain) : Prop :=
  ∀ m ids, holder chains m = some (.list ids) →
    (ids.getLast? = some m ↔ ∀ z ∈ E, z.byIp = false → z.upstream ≠ some m)

structure Drawn (E : List Link) (s : Summary) : Prop where
  ends : ∀ a b, Follows s.tunnelsChaining a b → ∃ y ∈ E, y.id = b ∧ y.upstream ≠ none
  exact : Single E →
    (∀ a b, Follows s.tunnelsChaining a b ↔ Refers E b a) ∧ Tails E s.tunnelsChaining
  sound : (∀ a b, Follows s.tunnelsChaining a b → Refers E b a) → Single E

theorem drawn_nil : Drawn [] ⟨[], [], []⟩ where
  ends := by simp [Follows]
  exact := fun _ => ⟨by simp [Follows, Refers], nofun⟩
  sound := fun _ => List.Pairwise.nil

section Step
variable {E : List Link} {x : Link} {s t : Summary}

theorem single_append : Single (E ++ [x]) ↔ Single E ∧
    ∀ z ∈ E, z.byIp = false → x.byIp = false → z.upstream = x.upstream → z.upstream = none := by
  simp [Single, List.pairwise_append]

theorem single_first (single : Single (E ++ [x])) {m : Word64} (refers : x.upstream = some m)
    (onlyTunnel : x.byIp = false) : ∀ z ∈ E, z.byIp = false → z.upstream ≠ some m := by
  intro z member direct same
  have lone := (single_append.mp single).2 z member direct onlyTunnel (same.trans refers.symm)
  rw [same] at lone
  cases lone

/-- What is appended for a tunnel: it follows the tunnel it is matched from, or the last one of
the chain that one is in. -/
theorem effect_follows (effect : SummaryEffect x s t) {m : Word64} (refers : x.upstream = some m) :
    ∃ l, (∀ a b, Follows t.tunnelsChaining a b ↔
        Follows s.tunnelsChaining a b ∨ (a = l ∧ b = x.id)) ∧
      (l = m ∧ (x.byIp = true ∨ holder s.tunnelsChaining m = none) ∨
        ∃ ids, holder s.tunnelsChaining m = some (.list ids) ∧ x.byIp = false ∧
          ids.getLast? = some l) := by
  cases effect with
  | alone lone =>
    rw [lone] at refers
    cases refers
  | paired same byIp =>
    cases refers.symm.trans same
    exact ⟨m, fun a b => by rw [follows_append]; exact or_congr_right pair_infix_pair,
      .inl ⟨rfl, .inl byIp⟩⟩
  | started same onlyTunnel unheld =>
    cases refers.symm.trans same
    exact ⟨m, fun a b => by rw [follows_append]; exact or_congr_right pair_infix_pair,
      .inl ⟨rfl, .inr unheld⟩⟩
  | @appended m' before after ids same onlyTunnel split free holds =>
    cases refers.symm.trans same
    obtain ⟨l, last⟩ : ∃ l, ids.getLast? = some l :=
      Option.ne_none_iff_exists'.mp fun empty => by
        rw [List.getLast?_eq_none_iff.mp empty] at holds
        cases holds
    refine ⟨l, fun a b => ?_, .inr ⟨ids, ?_, onlyTunnel, last⟩⟩
    · rw [follows_grown, split, last, Option.some.injEq, @eq_comm _ l a]
    · rw [split]
      exact holder_first free holds

theorem right_end (tracks : Tracks E s) (tails : Tails E s.tunnelsChaining) {m l : Word64}
    (refers : x.upstream = some m) (onlyTunnel : x.byIp = false)
    (place : l = m ∧ (x.byIp = true ∨ holder s.tunnelsChaining m = none) ∨
      ∃ ids, holder s.tunnelsChaining m = some (.list ids) ∧ x.byIp = false ∧
        ids.getLast? = some l) :
    l = m ↔ ∀ z ∈ E, z.byIp = false → z.upstream ≠ some m := by
  rcases place with ⟨rfl, byIp | unheld⟩ | ⟨ids, held, _, last⟩
  · rw [onlyTunnel] at byIp
    cases byIp
  · refine iff_of_true rfl fun z member _ upstream => ?_
    have untouched := List.find?_eq_none.mp (tracks.held_iff.mp unheld) z member
    exact untouched (touches_iff.mpr ⟨⟨_, upstream⟩, .inr upstream⟩)
  · rw [← tails m ids held, last, Option.some.injEq]

theorem effect_lone (effect : SummaryEffect x s t) (lone : x.upstream = none) :
    t.tunnelsChaining = s.tunnelsChaining := by
  cases effect with
  | alone => rfl
  | paired refers => cases lone.symm.trans refers
  | appended refers => cases lone.symm.trans refers
  | started refers => cases lone.symm.trans refers

theorem effect_ends (drawn : Drawn E s) (effect : SummaryEffect x s t) (a b : Word64)
    (follows : Follows t.tunnelsChaining a b) : ∃ y ∈ E ++ [x], y.id = b ∧ y.upstream ≠ none := by
  have before (old : Follows s.tunnelsChaining a b) :
      ∃ y ∈ E ++ [x], y.id = b ∧ y.upstream ≠ none := by
    obtain ⟨y, member, found⟩ := drawn.ends a b old
    exact ⟨y, List.mem_append_left _ member, found⟩
  cases upstream : x.upstream with
  | none =>
    rw [effect_lone effect upstream] at follows
    exact before follows
  | some m =>
    obtain ⟨l, grows, _⟩ := effect_follows effect upstream
    rcases (grows a b).mp follows with old | ⟨_, rfl⟩
    · exact before old
    · exact ⟨x, List.mem_append_right _ (List.mem_singleton_self x), rfl, by simp [upstream]⟩

theorem effect_tails (tracks : Tracks E s) (fresh : Fresh E x) (proper : x.upstream ≠ some x.id)
    (single : Single (E ++ [x])) (tails : Tails E s.tunnelsChaining)
    (effect : SummaryEffect x s t) : Tails (E ++ [x]) t.tunnelsChaining := by
  intro k grown held
  have each : (∀ z ∈ E ++ [x], z.byIp = false → z.upstream ≠ some k) ↔
      (∀ z ∈ E, z.byIp = false → z.upstream ≠ some k) ∧
        (x.byIp = false → x.upstream ≠ some k) := by
    simp [or_imp, forall_and]
  rw [each]
  have unchanged (held : holder s.tunnelsChaining k = some (.list grown))
      (other : x.byIp = false → x.upstream ≠ some k) : _ :=
    (tails k grown held).trans (and_iff_left other).symm
  have newcomer (here : k = x.id) : (∀ z ∈ E, z.byIp = false → z.upstream ≠ some k) ∧
      (x.byIp = false → x.upstream ≠ some k) :=
    ⟨fun z member _ => here ▸ (fresh z member).2, fun _ => here ▸ proper⟩
  cases effect with
  | alone lone => exact unchanged held fun _ => by simp [lone]
  | paired refers byIp =>
    rcases holder_pushed held with old | ⟨_, _, impossible⟩
    · exact unchanged old fun onlyTunnel => by simp [byIp] at onlyTunnel
    · cases impossible
  | started refers onlyTunnel unheld =>
    rcases holder_pushed held with old | ⟨_, member, same⟩
    · refine unchanged old fun _ same => ?_
      rw [Option.some.inj (refers.symm.trans same), old] at unheld
      cases unheld
    · cases same
      rcases List.mem_pair.mp member with rfl | here
      · refine iff_of_false (fun last => ?_) fun none_there => none_there.2 onlyTunnel refers
        exact proper (refers.trans last.symm)
      · exact iff_of_true (congrArg some here.symm) (newcomer here)
  | @appended m before after ids refers onlyTunnel split free holds =>
    have first : holder s.tunnelsChaining m = some (.list ids) := split ▸ holder_first free holds
    have last : ids.getLast? = some m :=
      (tails m ids first).mpr (single_first single refers onlyTunnel)
    by_cases here : k = x.id
    · have unheld := tracks.held_iff.mpr (fresh_untouched fresh)
      rw [split] at unheld
      rw [here, holder_newcomer unheld] at held
      cases held
      exact iff_of_true (here ▸ List.getLast?_concat) (newcomer here)
    · rw [holder_grown free holds here, ← split] at held
      obtain ⟨chain, old, image⟩ := Option.map_eq_some_iff.mp held
      split at image
      · next is_grown =>
        cases is_grown
        cases image
        refine iff_of_false (fun ends => ?_) fun none_there => ?_
        · rw [List.getLast?_concat, Option.some.injEq] at ends
          exact here ends.symm
        · have also := (tails k ids old).mpr none_there.1
          exact none_there.2 onlyTunnel (refers.trans (last.symm.trans also))
      · next other =>
        cases image
        refine unchanged old fun _ same => ?_
        rw [Option.some.inj (same.symm.trans refers), first] at old
        exact other (Option.some.inj old).symm

theorem follows_kept (effect : SummaryEffect x s t) {a b : Word64}
    (old : Follows s.tunnelsChaining a b) : Follows t.tunnelsChaining a b := by
  cases upstream : x.upstream with
  | none => exact effect_lone effect upstream ▸ old
  | some m =>
    obtain ⟨l, grows, _⟩ := effect_follows effect upstream
    exact (grows a b).mpr (.inl old)

theorem effect_exact (tracks : Tracks E s) (drawn : Drawn E s) (effect : SummaryEffect x s t)
    (single : Single (E ++ [x])) (a b : Word64) :
    Follows t.tunnelsChaining a b ↔ Refers (E ++ [x]) b a := by
  obtain ⟨follows, tails⟩ := drawn.exact (single_append.mp single).1
  rw [refers_append]
  cases upstream : x.upstream with
  | none => simp [effect_lone effect upstream, follows]
  | some m =>
    obtain ⟨l, grows, place⟩ := effect_follows effect upstream
    have same : l = m := by
      cases byIp : x.byIp with
      | false =>
        exact (right_end tracks tails upstream byIp place).mpr (single_first single upstream byIp)
      | true =>
        rcases place with ⟨same, _⟩ | ⟨_, _, onlyTunnel, _⟩
        · exact same
        · cases byIp.symm.trans onlyTunnel
    rw [grows, follows, same, Option.some.injEq, and_comm, @eq_comm _ a, @eq_comm _ b]

theorem effect_sound (tracks : Tracks E s) (drawn : Drawn E s) (fresh : Fresh E x)
    (effect : SummaryEffect x s t)
    (sound : ∀ a b, Follows t.tunnelsChaining a b → Refers (E ++ [x]) b a) :
    Single (E ++ [x]) := by
  have single : Single E := drawn.sound fun a b old => by
    rcases refers_append.mp (sound a b (follows_kept effect old)) with before | ⟨here, _⟩
    · exact before
    · obtain ⟨y, member, same, _⟩ := drawn.ends a b old
      exact absurd (same.trans here.symm) (fresh y member).1
  refine single_append.mpr ⟨single, fun z member direct onlyTunnel same => ?_⟩
  cases upstream : x.upstream with
  | none => exact same.trans upstream
  | some m =>
    obtain ⟨l, grows, place⟩ := effect_follows effect upstream
    have right : l = m := by
      rcases refers_append.mp (sound l x.id ((grows l x.id).mpr (.inr ⟨rfl, rfl⟩))) with
        ⟨y, old, same, _⟩ | ⟨_, refers⟩
      · exact absurd same (fresh y old).1
      · exact Option.some.inj (refers.symm.trans upstream)
    have first := (right_end tracks (drawn.exact single).2 upstream onlyTunnel place).mp right
    exact absurd (same.trans upstream) (first z member direct)

theorem effect_drawn (tracks : Tracks E s) (drawn : Drawn E s) (fresh : Fresh E x)
    (proper : x.upstream ≠ some x.id) (effect : SummaryEffect x s t) : Drawn (E ++ [x]) t where
  ends := effect_ends drawn effect
  exact single :=
    ⟨effect_exact tracks drawn effect single, effect_tails tracks fresh proper single
      (drawn.exact (single_append.mp single).1).2 effect⟩
  sound := effect_sound tracks drawn fresh effect

end Step

/-- The order and the kinds of references for which the chains come out right. Tunnels come
after the tunnel they are matched from if that one is matched from another itself. Only one
tunnel is matched from a tunnel without IP as well, not one that is itself matched by both;
it comes before those with IP, unless the tunnel continues a chain. -/
structure Chainable (l : List Link) : Prop where
  forward : l.Pairwise fun y x => y.upstream = some x.id → x.upstream = none
  single : Single l
  whole : ∀ x ∈ l, x.byIp = false → ∀ w ∈ l, x.upstream = some w.id → w.byIp = true →
    w.upstream = none
  leads : l.Pairwise fun y x => y.byIp = true → x.byIp = false → y.upstream = x.upstream →
    y.upstream = none ∨ ∃ w ∈ l, y.upstream = some w.id ∧ w.upstream ≠ none

/-- The stand-alone tunnels and the chains are those of the references. -/
def Reconstructed (tunnels : TunnelTable) : Prop :=
  ∃ saTunnels tunnelsChaining,
    printTunnelSummary tunnels = .ok (saTunnels, tunnelsChaining) ∧
    (∀ id, id ∈ saTunnels ↔ id ∈ tunnels.keys ∧
      (∀ a, ¬ Refers (links tunnels) id a) ∧ ∀ b, ¬ Refers (links tunnels) b id) ∧
    ∀ a b, Follows tunnelsChaining a b ↔ Refers (links tunnels) b a

theorem link_unique {tunnels : TunnelTable} {x y : Link} (left : x ∈ links tunnels)
    (right : y ∈ links tunnels) (same : x.id = y.id) : x = y :=
  List.inj_on_of_nodup_map (List.pairwise_map.mpr (links_distinct tunnels)) left right same

theorem links_nodup (tunnels : TunnelTable) : (links tunnels).Nodup :=
  (links_distinct tunnels).imp fun apart same => apart (congrArg Link.id same)

/-- In a list of tunnels that were examined, a tunnel in a chain comes before those that are
matched from it. -/
theorem first_toucher {E : List Link} (apart : E.Pairwise fun y x => y.id ≠ x.id)
    (uncovered : E.Pairwise fun y x => y.covers x = false) {w : Link} (member : w ∈ E)
    (refers : w.upstream ≠ none) : E.find? (touches w.id) = some w := by
  obtain ⟨pre, post, rfl⟩ := List.append_of_mem member
  refine List.find?_eq_some_iff_append.mpr ⟨touches_iff.mpr ⟨Option.ne_none_iff_exists'.mp refers,
    .inl rfl⟩, pre, post, rfl, fun y earlier => ?_⟩
  have other := (List.pairwise_append.mp apart).2.2 y earlier w List.mem_cons_self
  have free := (List.pairwise_append.mp uncovered).2.2 y earlier w List.mem_cons_self
  rw [Bool.not_eq_true', Bool.eq_false_iff]
  intro touched
  rcases (touches_iff.mp touched).2 with same | upstream
  · exact other same
  · exact of_decide_eq_false free upstream

section Examined
variable {tunnels : TunnelTable}

theorem examined_apart : (examined tunnels).Pairwise fun y x => y.id ≠ x.id :=
  (links_distinct tunnels).sublist examined_sublist

theorem examined_uncovered : (examined tunnels).Pairwise fun y x => y.covers x = false :=
  (sweep_uncovered [] _).2

theorem first_before {pre post : List Link} {x w : Link}
    (split : examined tunnels = pre ++ x :: post) (proper : x.upstream ≠ some x.id)
    (member : w ∈ examined tunnels) (matched : x.upstream = some w.id)
    (refers : w.upstream ≠ none) :
    w ∈ pre ∧ pre.find? (touches w.id) = some w := by
  have apart := @examined_apart tunnels
  have uncovered := @examined_uncovered tunnels
  rw [split] at member apart uncovered
  have earlier : w ∈ pre := by
    rcases List.mem_append.mp member with earlier | later
    · exact earlier
    · rcases List.mem_cons.mp later with rfl | later
      · exact absurd matched proper
      · have free := (List.pairwise_cons.mp (List.pairwise_append.mp uncovered).2.1).1 w later
        exact absurd matched (of_decide_eq_false free)
  exact ⟨earlier, first_toucher (List.pairwise_append.mp apart).1
    (List.pairwise_append.mp uncovered).1 earlier refers⟩

theorem forward_examined
    (forward : (links tunnels).Pairwise fun y x => y.upstream = some x.id → x.upstream = none) :
    ∀ x ∈ links tunnels, x.upstream ≠ none → x ∈ examined tunnels :=
  sweep_takes [] _ (fun _ member => absurd member List.not_mem_nil)
    (forward.imp fun ordered covers refers => refers (ordered (of_decide_eq_true covers)))

theorem refers_examined (all : ∀ x ∈ links tunnels, x.upstream ≠ none → x ∈ examined tunnels)
    (a b : Word64) : Refers (examined tunnels) b a ↔ Refers (links tunnels) b a := by
  constructor
  · rintro ⟨y, member, found⟩
    exact ⟨y, examined_links member, found⟩
  · rintro ⟨y, member, same, upstream⟩
    exact ⟨y, all y member (by simp [upstream]), same, upstream⟩

/-- What holds of any two tunnels in the order they were examined holds in the order of the
table, if it only concerns tunnels that are matched from others. -/
theorem pairwise_links {R : Link → Link → Prop}
    (all : ∀ x ∈ links tunnels, x.upstream ≠ none → x ∈ examined tunnels)
    (other : ∀ y x, (y.upstream = none ∨ x.upstream = none) → R y x)
    (ordered : (examined tunnels).Pairwise R) : (links tunnels).Pairwise R := by
  have same := sweep_filter [] (links tunnels) (links_nodup tunnels) all
  have kept := ordered.sublist (List.filter_sublist (p := fun x => decide (x.upstream ≠ none)))
  rw [examined, same, List.pairwise_filter] at kept
  refine kept.imp fun {y x} both => ?_
  by_cases left : y.upstream = none
  · exact other y x (.inl left)
  by_cases right : x.upstream = none
  · exact other y x (.inr right)
  · exact both (decide_eq_true left) (decide_eq_true right)

theorem chainable_quiet (present : ∀ x ∈ links tunnels, ¬ Dangling tunnels x)
    (proper : ∀ x ∈ links tunnels, x.upstream ≠ some x.id) (chainable : Chainable (links tunnels)) :
    firstFault (fault tunnels) [] (examined tunnels) = none := by
  refine (firstFault_none_iff [] _).mpr fun pre x post split => ?_
  have here : x ∈ examined tunnels := split ▸ List.mem_append_right _ List.mem_cons_self
  refine fault_none_iff.mpr ⟨present x (examined_links here), ?_⟩
  rintro ⟨m, refers, onlyTunnel, kind⟩
  obtain ⟨y, found, byIp⟩ := Option.map_eq_some_iff.mp kind
  rw [List.nil_append] at found
  have earlier : y ∈ pre := List.mem_of_find?_eq_some found
  have member : y ∈ links tunnels := examined_links (split ▸ List.mem_append_left _ earlier)
  obtain ⟨⟨m', upstream⟩, same | matched⟩ := touches_iff.mp (List.find?_some found)
  · have lone := chainable.whole x (examined_links here) onlyTunnel y member (same ▸ refers) byIp
    rw [upstream] at lone
    cases lone
  · have leads := chainable.leads.sublist examined_sublist
    rw [split] at leads
    have leads := (List.pairwise_append.mp leads).2.2 y earlier x List.mem_cons_self byIp onlyTunnel
      (matched.trans refers.symm)
    rcases leads with lone | ⟨w, there, upstream_w, refers_w⟩
    · rw [lone] at matched
      cases matched
    -- the tunnel they are both matched from continues a chain, so it is what was found
    have same := Option.some.inj (matched.symm.trans upstream_w)
    rw [same] at refers found
    have first := (first_before split (proper x (examined_links here))
      (forward_examined chainable.forward w there refers_w) refers refers_w).2
    rw [found, Option.some.injEq] at first
    have lone := chainable.whole x (examined_links here) onlyTunnel w there refers (first ▸ byIp)
    exact refers_w lone

theorem alone_exact {s : Summary} (tracks : Tracks (examined tunnels) s)
    (all : ∀ x ∈ links tunnels, x.upstream ≠ none → x ∈ examined tunnels) (id : Word64) :
    id ∈ s.saTunnels ↔ id ∈ tunnels.keys ∧ (∀ a, ¬ Refers (links tunnels) id a) ∧
      ∀ b, ¬ Refers (links tunnels) b id := by
  rw [tracks.alone]
  constructor
  · rintro ⟨⟨y, there, rfl, lone⟩, free⟩
    refine ⟨link_key (examined_links there), ?_, ?_⟩
    · rintro a ⟨z, member, same, upstream⟩
      rw [link_unique member (examined_links there) same, lone] at upstream
      cases upstream
    · rintro b ⟨z, member, _, upstream⟩
      exact free z (all z member (by simp [upstream])) upstream
  · rintro ⟨known, matched, free⟩
    obtain ⟨tunnel, entry⟩ := Dict.mem_keys.mp known
    have there : tunnel.link id ∈ links tunnels := List.mem_map_of_mem entry
    have lone : (tunnel.link id).upstream = none := by
      by_contra refers
      obtain ⟨a, upstream⟩ := Option.ne_none_iff_exists'.mp refers
      exact matched a ⟨_, there, rfl, upstream⟩
    have unmatched : ∀ y ∈ examined tunnels, y.upstream ≠ some id := fun y member upstream =>
      free y.id ⟨y, examined_links member, rfl, upstream⟩
    refine ⟨⟨tunnel.link id, ?_, rfl, lone⟩, unmatched⟩
    by_contra left
    obtain ⟨y, impossible | member, covers⟩ := sweep_complete [] (links tunnels) there left
    · cases impossible
    · exact unmatched y member (of_decide_eq_true covers)

theorem summary_drawn (proper : ∀ x ∈ links tunnels, x.upstream ≠ some x.id) :
    Ends (firstFault (fault tunnels) [] (examined tunnels))
      (summaryLoop tunnels tunnels.entries ⟨[], [], []⟩)
      (fun t => Tracks (examined tunnels) t ∧ Drawn (examined tunnels) t) := by
  have scan := summary_scan tunnels (fun E s => (∀ x ∈ E, x.upstream ≠ some x.id) → Drawn E s)
    (fun _ => drawn_nil) fun E s x t tracks drawn fresh effect proper =>
      effect_drawn tracks (drawn fun y member => proper y (List.mem_append_left _ member)) fresh
        (proper x (List.mem_append_right _ (List.mem_singleton_self x))) effect
  exact scan.imp fun t ⟨tracks, drawn⟩ =>
    ⟨tracks, drawn fun x member => proper x (examined_links member)⟩

theorem chainable_reconstructed (present : ∀ x ∈ links tunnels, ¬ Dangling tunnels x)
    (proper : ∀ x ∈ links tunnels, x.upstream ≠ some x.id) (chainable : Chainable (links tunnels)) :
    Reconstructed tunnels := by
  obtain ⟨t, ran, tracks, drawn⟩ :=
    (summary_drawn proper).done (chainable_quiet present proper chainable)
  have all := forward_examined chainable.forward
  obtain ⟨follows, _⟩ := drawn.exact (chainable.single.sublist examined_sublist)
  refine ⟨t.saTunnels, t.tunnelsChaining, ?_, alone_exact tracks all, fun a b => ?_⟩
  · rw [printTunnelSummary, ran]
    rfl
  · rw [follows, refers_examined all]

theorem reconstructed_run (proper : ∀ x ∈ links tunnels, x.upstream ≠ some x.id)
    (exact : Reconstructed tunnels) :
    firstFault (fault tunnels) [] (examined tunnels) = none ∧ ∃ t, Drawn (examined tunnels) t ∧
      ∀ a b, Follows t.tunnelsChaining a b ↔ Refers (links tunnels) b a := by
  obtain ⟨saTunnels, tunnelsChaining, printed, _, follows⟩ := exact
  have scan := summary_drawn proper
  rw [printTunnelSummary] at printed
  cases first : firstFault (fault tunnels) [] (examined tunnels) with
  | some e =>
    rw [scan.failed first] at printed
    cases printed
  | none =>
    obtain ⟨t, ran, _, drawn⟩ := scan.done first
    rw [ran] at printed
    cases printed
    exact ⟨rfl, t, drawn, follows⟩

theorem quiet_leads (quiet : firstFault (fault tunnels) [] (examined tunnels) = none)
    (single : Single (examined tunnels)) :
    (examined tunnels).Pairwise fun y x => y.byIp = true → x.byIp = false →
      y.upstream = x.upstream →
      y.upstream = none ∨ ∃ w ∈ links tunnels, y.upstream = some w.id ∧ w.upstream ≠ none := by
  refine pairwise_of_splits fun pre x post split y earlier byIp onlyTunnel same => ?_
  cases upstream : y.upstream with
  | none => exact .inl rfl
  | some m =>
    right
    have fine := (quiet_at quiet split).2
    cases found : pre.find? (touches m) with
    | none =>
      have touched : touches m y = true := touches_iff.mpr ⟨⟨m, upstream⟩, .inr upstream⟩
      exact absurd touched (List.find?_eq_none.mp found y earlier)
    | some z =>
      have before : z ∈ pre := List.mem_of_find?_eq_some found
      have direct : z.byIp = false := by
        by_contra also
        exact fine ⟨m, same.symm.trans upstream, onlyTunnel, by simp [found, also]⟩
      obtain ⟨⟨m', upstream_z⟩, rfl | matched⟩ := touches_iff.mp (List.find?_some found)
      · exact ⟨z, examined_links (split ▸ List.mem_append_left _ before), rfl, by simp [upstream_z]⟩
      · rw [split] at single
        have lone := (List.pairwise_append.mp single).2.2 z before x List.mem_cons_self direct
          onlyTunnel (matched.trans (upstream.symm.trans same))
        rw [matched] at lone
        cases lone

theorem reconstructed_chainable (proper : ∀ x ∈ links tunnels, x.upstream ≠ some x.id)
    (exact : Reconstructed tunnels) : Chainable (links tunnels) := by
  obtain ⟨quiet, t, drawn, follows⟩ := reconstructed_run proper exact
  have all : ∀ x ∈ links tunnels, x.upstream ≠ none → x ∈ examined tunnels := by
    intro x member refers
    obtain ⟨m, upstream⟩ := Option.ne_none_iff_exists'.mp refers
    have after := (follows m x.id).mpr ⟨x, member, rfl, upstream⟩
    obtain ⟨y, there, same, _⟩ := drawn.ends m x.id after
    exact link_unique (examined_links there) member same ▸ there
  have single : Single (examined tunnels) := drawn.sound fun a b after =>
    (refers_examined all a b).mpr ((follows a b).mp after)
  refine ⟨?_, ?_, fun x member onlyTunnel w there matched byIp => ?_, ?_⟩
  · refine (sweep_forward [] _ (links_nodup tunnels) all).2.imp fun {y x} free matched => ?_
    by_contra refers
    exact of_decide_eq_false (free (by simp [matched]) refers) matched
  · exact pairwise_links all (fun y x lone _ _ same => lone.elim id same.trans) single
  · by_contra refers
    obtain ⟨pre, post, split⟩ := List.append_of_mem (all x member (by simp [matched]))
    have first := (first_before split (proper x member) (all w there refers) matched refers).2
    have fine := (quiet_at quiet split).2
    exact fine ⟨w.id, matched, onlyTunnel, by simp [first, byIp]⟩
  · exact pairwise_links all (fun y x lone _ _ same => .inl (lone.elim id same.trans))
      (quiet_leads quiet single)

end Examined

theorem acyclic_proper {tunnels : TunnelTable} (acyclic : Acyclic (links tunnels)) :
    ∀ x ∈ links tunnels, x.upstream ≠ some x.id :=
  fun x member upstream => acyclic x.id (.single ⟨x, member, rfl, upstream⟩)

section Order
variable {tunnels other : TunnelTable}

theorem links_perm (perm : other.entries.Perm tunnels.entries) (x : Link) :
    x ∈ links other ↔ x ∈ links tunnels := (perm.map fun e => e.2.link e.1).mem_iff

theorem refers_perm (perm : other.entries.Perm tunnels.entries) (b a : Word64) :
    Refers (links other) b a ↔ Refers (links tunnels) b a := by
  simp only [Refers, links_perm perm]

theorem dangling_perm (perm : other.entries.Perm tunnels.entries) (x : Link) :
    Dangling other x ↔ Dangling tunnels x := by
  simp only [Dangling, Dict.keys, (perm.map Prod.fst).mem_iff]

end Order

/-- The summary is that of the references exactly for a table in such an order; two such orders
of one table have the same summary, as sets. -/
theorem chains_exact (tunnels : TunnelTable)
    (present : ∀ x ∈ links tunnels, ¬ Dangling tunnels x) (acyclic : Acyclic (links tunnels)) :
    (Reconstructed tunnels ↔ Chainable (links tunnels)) ∧
    ∀ other : TunnelTable, other.entries.Perm tunnels.entries →
      Chainable (links tunnels) → Chainable (links other) →
      ∃ saTunnels tunnelsChaining saTunnels' tunnelsChaining',
        printTunnelSummary tunnels = .ok (saTunnels, tunnelsChaining) ∧
        printTunnelSummary other = .ok (saTunnels', tunnelsChaining') ∧
        (∀ id, id ∈ saTunnels ↔ id ∈ saTunnels') ∧
        ∀ a b, Follows tunnelsChaining a b ↔ Follows tunnelsChaining' a b := by
  have proper := acyclic_proper acyclic
  refine ⟨⟨reconstructed_chainable proper, chainable_reconstructed present proper⟩, ?_⟩
  intro other perm chainable chainable_other
  obtain ⟨sa, chains, printed, alone, follows⟩ := chainable_reconstructed present proper chainable
  obtain ⟨sa', chains', printed', alone', follows'⟩ :=
    chainable_reconstructed
      (fun x member dangling => present x ((links_perm perm x).mp member)
        ((dangling_perm perm x).mp dangling))
      (fun x member => proper x ((links_perm perm x).mp member)) chainable_other
  refine ⟨sa, chains, sa', chains', printed, printed', fun id => ?_, fun a b => ?_⟩
  · rw [alone, alone']
    simp only [refers_perm perm, Dict.keys, (perm.map Prod.fst).mem_iff]
  · rw [follows, follows', refers_perm perm]

theorem acyclic_of_lt {l : List Link}
    (smaller : ∀ x ∈ l, x.upstream.all (fun m => m.toNat < x.id.toNat) = true) : Acyclic l := by
  have each : ∀ x ∈ l, ∀ m, x.upstream = some m → m.toNat < x.id.toNat := by
    intro x member m upstream
    have less := smaller x member
    rw [upstream] at less
    exact of_decide_eq_true less
  have less : ∀ b a, Relation.TransGen (Refers l) b a → a.toNat < b.toNat := by
    intro b a path
    induction path with
    | single step =>
      obtain ⟨y, member, rfl, upstream⟩ := step
      exact each y member _ upstream
    | tail _ step ih =>
      obtain ⟨y, member, rfl, upstream⟩ := step
      exact Nat.lt_trans (each y member _ upstream) ih
  exact fun id path => Nat.lt_irrefl _ (less id id path)

def chainTable : TunnelTable :=
  ⟨[decapTunnel 20000#64 0#64 0#32, decapTunnel 20001#64 20000#64 0#32,
    decapTunnel 20002#64 20001#64 0#32, decapTunnel 20003#64 20002#64 0#32], by decide⟩

theorem chains_exact_client :
    (Reconstructed chainTable ↔ Chainable (links chainTable)) ∧
    ∀ other : TunnelTable, other.entries.Perm chainTable.entries →
      Chainable (links chainTable) → Chainable (links other) →
      ∃ saTunnels tunnelsChaining saTunnels' tunnelsChaining',
        printTunnelSummary chainTable = .ok (saTunnels, tunnelsChaining) ∧
        printTunnelSummary other = .ok (saTunnels', tunnelsChaining') ∧
        (∀ id, id ∈ saTunnels ↔ id ∈ saTunnels') ∧
        ∀ a b, Follows tunnelsChaining a b ↔ Follows tunnelsChaining' a b :=
  chains_exact chainTable (by decide) (acyclic_of_lt (by decide))

def forkTable : TunnelTable :=
  ⟨[decapTunnel 1#64 0#64 0#32, decapTunnel 2#64 1#64 0#32, decapTunnel 3#64 1#64 0#32],
    by decide⟩

/-- Of the two tunnels that are matched from the first, the second is printed after the other. -/
theorem fork_in_line : (∀ x ∈ links forkTable, ¬ Dangling forkTable x) ∧
    Acyclic (links forkTable) ∧ ¬ Reconstructed forkTable := by
  refine ⟨by decide, acyclic_of_lt (by decide), ?_⟩
  rintro ⟨sa, chains, printed, _, follows⟩
  cases printed.symm.trans (show printTunnelSummary forkTable =
    .ok ([], [.list [1#64, 2#64, 3#64]]) from rfl)
  have line : Follows [.list [1#64, 2#64, 3#64]] 2#64 3#64 :=
    ⟨_, List.mem_singleton_self _, [1#64], [], rfl⟩
  obtain ⟨y, member, three, two⟩ := (follows 2#64 3#64).mp line
  have apart : ∀ y ∈ links forkTable, y.id = 3#64 → y.upstream ≠ some 2#64 := by decide
  exact apart y member three two

end SessionOffload
