import Parley.Descriptor

/-! Ids, names and keys that both sides of the chat service use. -/

namespace Parley.Chat

def tell : UInt8 := 1

def broadcast : UInt8 := 2

def away : UInt8 := 3

def service : ServiceDescriptor :=
  ⟨"chat", [⟨"tell", tell⟩, ⟨"broadcast", broadcast⟩, ⟨"away", away⟩]⟩

def tellSucceeded : UInt8 := 1

def tellSucceededIdle : UInt8 := 2

def tellListener : ListenerDescriptor :=
  ⟨"TellListener",
    [⟨"tell_succeeded", tellSucceeded⟩, ⟨"tell_succeeded_idle", tellSucceededIdle⟩]⟩

def messageEvent : String := "chat"

def awayAttribute : String := "away_message"

def userNotOnline : String := "m.user_not_online"

def messageTooLong : String := "m.message_too_long"

def internalError : String := "m.internal_error"

end Parley.Chat
