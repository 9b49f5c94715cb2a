import Vdag.ConnectionCache
import Vdag.Proofs.Effects
import Vdag.Proofs.RecencyCache

/-! Dialling, run: a connection that is kept is not opened again, and one that breaks is dropped. -/
namespace Vdag.Dialer
open Vdag.Action

variable {σ κ : Type} (dialer : Dialer (StateM σ) κ)

theorem onUnsupported {d : Destination} (port : d.port = 0) (s : σ) (cache : ConnectionCache κ) :
    on (joined (dialer.connection d)) (s, cache) = (.error (.transport (.unsupportedPort d.host)), (s, cache)) := by
  rw [connection, if_pos port]
  rfl

theorem onConnection {d : Destination} (port : d.port ≠ 0) (s : σ) (cache : ConnectionCache κ) :
    on (joined (dialer.connection d)) (s, cache) =
      match cache.get (dialer.clock.run s).1 d.endpoint with
      | (some connection, cache) => (.ok connection, ((dialer.clock.run s).2, cache))
      | (none, cache) => match on (dialer.connector.connect d) (dialer.clock.run s).2 with
        | (.error failure, s) => (.error failure, (s, cache))
        | (.ok connection, s) => (.ok connection,
            ((dialer.clock.run s).2, cache.insert (dialer.clock.run s).1 d.endpoint connection)) := by
  rcases ticked : dialer.clock s with ⟨now, s'⟩
  have looked : on (joined (ExceptT.lift (fun cache => do return cache.get (← dialer.clock) d.endpoint) :
      Action (StateT (ConnectionCache κ) (StateM σ)) (Option κ))) (s, cache) =
      (.ok (cache.get now d.endpoint).1, (s', (cache.get now d.endpoint).2)) := by
    simp only [on, joined, ExceptT.run_mk, StateT.run, ExceptT.run_lift, bind, StateT.bind, Functor.map, StateT.map,
      ticked]
    rfl
  rw [connection, if_neg port, onJoinedBind, looked]
  rcases found : cache.get now d.endpoint with ⟨_ | connection, cache'⟩
  · simp only [StateT.run, ticked, found]
    simp only [on, joined, openNew, ExceptT.run_mk, StateT.run, bind, StateT.bind]
    rcases ran : ExceptT.run (dialer.connector.connect d) s' with ⟨_ | connection, s''⟩
    all_goals rfl
  · simp only [StateT.run, ticked, found]
    rfl

theorem holdsConnection {P : String → κ → Prop} {cache : ConnectionCache κ} (holds : cache.Holds P) {d : Destination}
    (opens : ∀ s connection, (on (dialer.connector.connect d) s).1 = .ok connection → P d.endpoint connection) (s : σ) :
    (on (joined (dialer.connection d)) (s, cache)).2.2.Holds P := by
  by_cases port : d.port = 0
  · rw [dialer.onUnsupported port]
    exact holds
  · rw [dialer.onConnection port]
    obtain ⟨stays, _⟩ := holds.holdsGet (dialer.clock.run s).1 d.endpoint
    rcases looked : cache.get (dialer.clock.run s).1 d.endpoint with ⟨_ | connection, cache'⟩
    · rw [looked] at stays
      dsimp only
      rcases dialled : on (dialer.connector.connect d) (dialer.clock.run s).2 with ⟨_ | connection, s'⟩
      · exact stays
      · exact stays.holdsInsert _ (opens _ connection (congrArg Prod.fst dialled))
    · rw [looked] at stays
      exact stays

theorem onDeliver (d : Destination) (payload : Bytes) (w : σ × ConnectionCache κ) :
    on (joined (dialer.deliver d payload)) w =
      match on (joined (dialer.connection d)) w with
      | (.error failure, after) => (.error failure, after)
      | (.ok connection, (s, cache)) => match on (dialer.connector.push connection d.queue payload) s with
        | (.ok _, s) => (.ok (), (s, cache))
        | (.error failure, s) => (.error failure, (s, drop d cache)) := by
  rw [deliver, onJoinedBind]
  rcases on (joined (dialer.connection d)) w with ⟨_ | connection, s, cache⟩
  · rfl
  · simp only [on, joined, ExceptT.run_mk, StateT.run, bind, StateT.bind]
    rcases ran : ExceptT.run (dialer.connector.push connection d.queue payload) s with ⟨_ | _, s'⟩
    all_goals rfl

end Vdag.Dialer
