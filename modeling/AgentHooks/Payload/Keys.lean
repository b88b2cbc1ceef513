/-
The keys of a payload.

Two generations of senders spell the same key with hyphens or with
underscores, and name the kind of event under several keys.  A key is known by
its canonical form; `normalized` is the payload under canonical keys, and the
payload itself is never rewritten.
-/
import AgentHooks.Json.Record
import AgentHooks.Json.Coercion

namespace AgentHooks

namespace Key

/-- The canonical key of the discriminant, which names the kind of event. -/
def discriminant : String := "type"

def schemaVersion : String := "schema-version"

def eventId : String := "event-id"

def timestamp : String := "timestamp"

/-- The fields that every kind of event has. -/
def common : List String := [schemaVersion, eventId, timestamp, discriminant]

/-- The keys under which senders put the discriminant, the preferred one first. -/
def discriminantSpellings : List String :=
  ["type", "event-type", "event_type", "xcodex-event-type", "xcodex_event_type",
    "hook-event-name", "hook_event_name"]

/-- Whether senders put the discriminant under this key. -/
def isDiscriminant (key : String) : Bool := discriminantSpellings.contains key

/-- Whether a key has no underscore to replace. -/
def isHyphenated (key : String) : Bool := !key.toList.contains '_'

def hyphen (c : Char) : Char := if c = '_' then '-' else c

def hyphenated (key : String) : String := String.ofList (key.toList.map hyphen)

/-- The form under which a key is looked up. -/
def canonical (key : String) : String :=
  if isDiscriminant key then discriminant else hyphenated key

/-- Whether a key is a common field or one of the `named` ones, in either
spelling. -/
def isKnown (key : String) (named : List String) : Bool :=
  common.contains (canonical key) || named.contains (canonical key)

end Key

namespace Record

/-- The discriminant of a payload: the first reading as text among its
spellings, or the empty text. -/
def discriminant (raw : Record) : String :=
  (Key.discriminantSpellings.findSome? fun key => (raw.get? key).bind Json.asText?).getD ""

/-- Enters a member under its canonical key.  The canonical spelling replaces
any other one, and the first of the others stays; the discriminant is not a
field. -/
def enter (view : Record) (m : String × Json) : Record :=
  let key := Key.canonical m.1
  if key = Key.discriminant then view
  else if key = m.1 ∨ view.get? key = none then view.insert key m.2
  else view

/-- The view of some members under canonical keys, entered in turn. -/
def normalizedOf (members : List (String × Json)) : Record := members.foldl enter empty

/-- The view of a payload under canonical keys. -/
def normalized (raw : Record) : Record := normalizedOf raw.members

/-- The members that are neither common nor among the `named` fields. -/
def extras (raw : Record) (named : List String) : Record :=
  raw.filterKeys fun key => !Key.isKnown key named

end Record

end AgentHooks
