import SessionOffload.TunnelServer
import SessionOffload.Lib.Chunks

/-! getAllIpTunnelsStats of tunnels_server.py: the statistics of all tunnels as a stream of
messages. -/
namespace SessionOffload

structure IpTunnelStatsResponse where
  tunnelId : Word64
  tunnelCounters : TunnelCounters
  deriving DecidableEq, Repr

structure IpTunnelStatsResponses where
  responses : List IpTunnelStatsResponse
  deriving DecidableEq, Repr

def Tunnel.statsResponse (tunnel : Tunnel) : IpTunnelStatsResponse :=
  ⟨tunnel.tunnelId, tunnel.counters⟩

/-- The loop of the generator, which goes over a copy of the tunnels. -/
def statsLoop (iterationCount numTunnels : Nat) :
    Nat → List IpTunnelStatsResponse → List Tunnel → List IpTunnelStatsResponses
  | _, _, [] => []
  | i, tunnelsToSend, tunnel :: tunnels =>
    let tunnelsToSend := tunnelsToSend ++ [tunnel.statsResponse]
    if tunnelsToSend.length = iterationCount ∨ i = numTunnels - 1 then
      ⟨tunnelsToSend⟩ :: statsLoop iterationCount numTunnels (i + 1) [] tunnels
    else statsLoop iterationCount numTunnels (i + 1) tunnelsToSend tunnels

def getAllIpTunnelsStats (tunnelsPerRequest : Word32) (tunnels : TunnelTable) :
    List IpTunnelStatsResponses :=
  statsLoop tunnelsPerRequest.toNat tunnels.values.length 0 [] tunnels.values

theorem statsLoop_flush (iterationCount numTunnels i : Nat) (held : List IpTunnelStatsResponse)
    (tunnels : List Tunnel) (position : i + tunnels.length = numTunnels) :
    (statsLoop iterationCount numTunnels i held tunnels).map IpTunnelStatsResponses.responses =
      Chunks.flush iterationCount held (tunnels.map Tunnel.statsResponse) := by
  induction tunnels generalizing i held with
  | nil => rfl
  | cons tunnel tunnels ih =>
    rw [List.length_cons] at position
    have next : i + 1 + tunnels.length = numTunnels := by omega
    have last : i = numTunnels - 1 ↔ tunnels.map Tunnel.statsResponse = [] := by
      rw [List.map_eq_nil_iff, ← List.length_eq_zero_iff]
      omega
    simp only [statsLoop, List.map_cons, Chunks.flush, ← last]
    split
    · rw [List.map_cons, ih (i + 1) [] next]
    · exact ih (i + 1) _ next

theorem stats_flush (tunnelsPerRequest : Word32) (tunnels : TunnelTable) :
    (getAllIpTunnelsStats tunnelsPerRequest tunnels).map IpTunnelStatsResponses.responses =
      Chunks.flush tunnelsPerRequest.toNat [] (tunnels.values.map Tunnel.statsResponse) :=
  statsLoop_flush _ _ 0 [] _ (Nat.zero_add _)

/-- The messages of the stream: none is empty, together they are the statistics of the table
in its order, and all but the last have as many as were asked for. -/
theorem stats_stream (tunnelsPerRequest : Word32) (tunnels : TunnelTable) :
    let messages := getAllIpTunnelsStats tunnelsPerRequest tunnels
    (∀ message ∈ messages, message.responses ≠ []) ∧
    messages.flatMap IpTunnelStatsResponses.responses =
      tunnels.values.map Tunnel.statsResponse ∧
    (1 ≤ tunnelsPerRequest.toNat →
      (∀ message ∈ messages.dropLast, message.responses.length = tunnelsPerRequest.toNat) ∧
      ∀ message ∈ messages, message.responses.length ≤ tunnelsPerRequest.toNat) ∧
    (tunnelsPerRequest.toNat = 0 → 1 ≤ tunnels.values.length → messages.length = 1) ∧
    (tunnels.values.length = 0 → messages = []) := by
  intro messages
  have chunks := stats_flush tunnelsPerRequest tunnels
  have chunk : ∀ message ∈ messages, message.responses ∈
      Chunks.flush tunnelsPerRequest.toNat [] (tunnels.values.map Tunnel.statsResponse) := by
    intro message member
    rw [← chunks]
    exact List.mem_map_of_mem member
  refine ⟨fun message member => Chunks.flush_items (chunk message member), ?_, fun some => ⟨?_, ?_⟩,
    fun zero more => ?_, fun none => ?_⟩
  · rw [List.flatMap_def, chunks, Chunks.flush_nil_flatten]
  · intro message member
    apply Chunks.flush_full []
    rw [← chunks, ← List.map_dropLast]
    exact List.mem_map_of_mem member
  · intro message member
    exact Chunks.flush_small [] some (chunk message member)
  · have long := congrArg List.length chunks
    rw [List.length_map, zero] at long
    cases values : tunnels.values with
    | nil =>
      rw [values] at more
      cases more
    | cons tunnel rest =>
      rw [values, List.map_cons, Chunks.flush_zero] at long
      exact long
  · rw [List.length_eq_zero_iff] at none
    rw [none] at chunks
    exact List.map_eq_nil_iff.mp chunks

end SessionOffload
