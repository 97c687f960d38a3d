import PacketExpr.Attribute.Basic

/-!
# Attribute tables

A table gives access to the attributes of one nesting level by kind.  A schema says for each kind
which payloads are admitted; kinds that it does not cover, and kind 0, are skipped.  Of several
attributes of one kind the last one counts, but each of them has to be admitted.

`AttributeTable.parse` reports the first fault in the order of the bytes: a payload that is not
admitted comes before a truncated attribute that follows it.
-/

namespace PacketExpr

/-- Shape that is asked of the payload of an attribute. -/
inductive Policy where
  | unspecified
  | word
  /-- A stream of attributes: nothing, or at least one header. -/
  | nested
  | binary (limit : Nat)
  /-- At most `limit` bytes, not counting a terminating NUL. -/
  | text (limit : Nat)
deriving DecidableEq

/-- The bytes without the NUL that may end them. -/
def trimNul (bytes : Bytes) : Bytes :=
  if bytes.getLast? = some 0 then bytes.dropLast else bytes

namespace Policy

def admits (policy : Policy) (payload : Bytes) : Bool :=
  match policy with
  | unspecified => true
  | word => payload.length == 4
  | nested => payload.isEmpty || Attribute.headerSize ≤ payload.length
  | binary limit => payload.length ≤ limit
  | text limit => (trimNul payload).length ≤ limit

end Policy

/-- The policies of the kinds of one nesting level, by kind. -/
abbrev Schema := Array Policy

namespace Schema

/-- The policy for attributes of a kind; kind 0 never has one. -/
def policy? (schema : Schema) (kind : Nat) : Option Policy :=
  if kind = 0 then none else schema[kind]?

end Schema

/-- The payloads of one nesting level, by kind. -/
structure AttributeTable where
  entries : Array (Option Bytes)
deriving DecidableEq

namespace AttributeTable

/-- A table for the kinds below `size` in which every one of them is missing. -/
def blank (size : Nat) : AttributeTable := ⟨Array.replicate size none⟩

def get? (table : AttributeTable) (kind : Nat) : Option Bytes := table.entries[kind]?.join

def has (table : AttributeTable) (kind : Nat) : Bool := (table.get? kind).isSome

/-- The payload of a kind as a word; none if it is missing or not four bytes long. -/
def word? (table : AttributeTable) (kind : Nat) : Option UInt32 :=
  (table.get? kind).bind Bytes.toWord?

/-- The payload of a kind as text, without the NUL that may end it. -/
def text? (table : AttributeTable) (kind : Nat) : Except AttributeError (Option String) :=
  match table.get? kind with
  | none => .ok none
  | some payload =>
    match String.fromUTF8? ⟨(trimNul payload).toArray⟩ with
    | some text => .ok (some text)
    | none => .error (.invalid kind)

/-- The table after one more attribute, provided that the schema admits it. -/
def insert (schema : Schema) (table : AttributeTable) (attr : Attribute) :
    Except AttributeError AttributeTable :=
  match schema.policy? attr.kind with
  | none => .ok table
  | some policy =>
    if policy.admits attr.payload then
      .ok ⟨table.entries.setIfInBounds attr.kind (some attr.payload)⟩
    else
      .error (.invalid attr.kind)

/-- The table of the attributes in a byte string, checked against the schema. -/
def parse (schema : Schema) (bytes : Bytes) : Except AttributeError AttributeTable := do
  let stream := AttributeStream.ofBytes bytes
  let table ← stream.attributes.foldlM (insert schema) (blank schema.size)
  if stream.complete then .ok table else .error .truncated

end AttributeTable

end PacketExpr
