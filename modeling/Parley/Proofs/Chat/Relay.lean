import Parley.Chat.Relay
import Parley.Proofs.Dispatch.Registry
import Parley.Proofs.Server.Lobby

/-! What the chat service does to a server: it posts events, sets away texts, and answers. -/

namespace Parley.Chat

open Dispatch Server

def Spoken (message : Message) : Prop := ∃ event, message = .event event

variable {α : Type}

theorem steady_sessions :
    (sessions : Program (Lobby α) SessionTable).Steady (Lobby.Advanced fun _ => Spoken) := by
  refine Program.steady_get.bind fun lobby => ?_
  split
  · exact Program.steady_done _
  · exact Program.steady_fail _

theorem steady_deliver (connection : ConnectionId) (event : ObjectEvent) :
    (deliver connection (.event event) : Program (Lobby α) Unit).Steady
      (Lobby.Advanced fun _ => Spoken) := by
  intro lobby
  simp only [deliver, bind, Program.bind, Program.get, Program.Keeps]
  split
  · exact ⟨.post lobby ⟨event, rfl⟩, trivial⟩
  · trivial

theorem steady_answers (listener : Nat) (method : UInt8) (args : Arguments) :
    (do let _ ← Program.answer listener method args : Program (Lobby α) Unit).Steady
      (Lobby.Advanced fun _ => Spoken) :=
  (Program.steady_answer listener method args).bind fun _ => Program.steady_done ()

theorem steady_relayTell (caller : Caller) (target message : String) (listener : Nat) :
    (relayTell caller target message listener : Program (Lobby α) Unit).Steady
      (Lobby.Advanced fun _ => Spoken) := by
  refine steady_sessions.bind fun table => ?_
  split
  · exact Program.steady_fail _
  · rename_i session _
    refine (steady_deliver session.connection _).bind fun _ => ?_
    split
    · exact steady_answers listener tellSucceeded []
    · exact Program.steady_get.bind fun lobby => steady_answers listener tellSucceededIdle _

theorem advanced_announce (speaker text : String) (lobby : Lobby α) (sessions : List Session) :
    lobby.Advanced (fun _ => Spoken) (announce speaker text lobby sessions).2 := by
  induction sessions generalizing lobby with
  | nil => exact .refl lobby
  | cons session rest ih =>
    have here : lobby.Advanced (fun _ => Spoken)
        (lobby.post session.connection (line session.oid speaker text)).2 := .post lobby ⟨_, rfl⟩
    unfold announce
    split
    · rename_i posted
      rw [posted] at here
      exact here
    · rename_i posted
      rw [posted] at here
      exact here.trans (ih _)

theorem steady_relayBroadcast (caller : Caller) (message : String) (listener : Nat) :
    (relayBroadcast caller message listener : Program (Lobby α) Unit).Steady
      (Lobby.Advanced fun _ => Spoken) := by
  refine steady_sessions.bind fun table lobby => ?_
  refine ⟨advanced_announce caller.username message lobby table.sessions, ?_⟩
  split
  · exact Program.steady_fail _ _
  · exact steady_answers listener requestProcessed [] _

theorem advanced_setAway (oid : Oid) (text : String) (lobby : Lobby α) :
    lobby.Advanced (fun _ => Spoken)
      { lobby with sessions := lobby.sessions.setAway oid text lobby.clock } :=
  ⟨.refl _, lobby.sessions.withoutAway_setAway oid text lobby.clock, rfl⟩

theorem steady_relayAway (caller : Caller) (message : String) :
    (relayAway caller message : Program (Lobby α) Unit).Steady
      (Lobby.Advanced fun _ => Spoken) := by
  refine steady_sessions.bind fun table => ?_
  split
  · exact Program.steady_done ()
  · rename_i session _
    refine (Program.steady_modify fun lobby => ?_).bind fun _ => ?_
    · exact advanced_setAway caller.oid message lobby
    · exact steady_deliver session.connection _

theorem steady_relay [Inhabited τ] :
    (relay.table : DispatchTable τ (Lobby α)).Steady (Lobby.Advanced fun _ => Spoken) := by
  intro entry mem caller args
  simp only [Provider.table, List.mem_cons, List.not_mem_nil, or_false] at mem
  obtain rfl | rfl | rfl := mem
  · refine Program.Steady.onShared ?_
    refine (Program.steady_ofExcept _).bind fun _ => ?_
    refine (Program.steady_ofExcept _).bind fun _ => ?_
    refine (Program.steady_ofExcept _).bind fun target => ?_
    refine (Program.steady_ofExcept _).bind fun message => ?_
    exact steady_relayTell caller target message 2
  · refine Program.Steady.onShared ?_
    refine (Program.steady_ofExcept _).bind fun _ => ?_
    refine (Program.steady_ofExcept _).bind fun _ => ?_
    refine (Program.steady_ofExcept _).bind fun message => ?_
    exact steady_relayBroadcast caller message 1
  · refine Program.Steady.onShared ?_
    refine (Program.steady_ofExcept _).bind fun _ => ?_
    refine (Program.steady_ofExcept _).bind fun message => ?_
    exact steady_relayAway caller message

end Parley.Chat
