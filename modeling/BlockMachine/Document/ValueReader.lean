import BlockMachine.Document.Literal
import BlockMachine.Document.Value

/-!
# Reading values

* `Value.insertMember` — the members of an object with one more; `Value.member?` — one of them.
* `Reader.value` — a value.
* `Value.ofText` — the value of a whole document.
-/

set_option autoImplicit false

namespace BlockMachine

namespace Value

/-- The members of an object with one more.  Members are in the order of their names, and of two members
of one name the later one counts. -/
def insertMember (name : String) (value : Value) : List (String × Value) → List (String × Value)
  | [] => [(name, value)]
  | member :: rest =>
    if name < member.1 then (name, value) :: member :: rest
    else if name = member.1 then (name, value) :: rest
    else member :: insertMember name value rest

/-- The value of a name in an object. -/
def member? (name : String) : Value → Option Value
  | object members => members.lookup name
  | _ => none

end Value

namespace Reader

mutual

/-- A value.  Every two turns pass a character at least, so there are no more than twice as many turns as
characters. -/
def value : (turns : Nat) → Reader Value
  | 0 => failNext .endInValue
  | turns + 1 => do
    match ← next with
    | none => failNext .endInValue
    | some 'n' =>
      word "null".toList
      return .null
    | some 't' =>
      word "true".toList
      return .boolean true
    | some 'f' =>
      word "false".toList
      return .boolean false
    | some '"' =>
      take
      return .text (← text)
    | some '[' =>
      take
      let values ← items turns true
      closeList
      return .list values
    | some '{' =>
      take
      let named ← entries turns true []
      closeObject
      return .object named
    | some c =>
      if startsNumber c then return .ofNumeral (← number)
      else failNext .valueMissing

/-- The items of a list whose bracket has been passed. -/
def items : (turns : Nat) → (isFirst : Bool) → Reader (List Value)
  | 0, _ => return []
  | turns + 1, isFirst => do
    if ← moreItems isFirst then
      let item ← value turns
      return item :: (← items turns false)
    else return []

/-- The members of an object whose brace has been passed, with those that are known. -/
def entries : (turns : Nat) → (isFirst : Bool) → List (String × Value) → Reader (List (String × Value))
  | 0, _, known => return known
  | turns + 1, isFirst, known => do
    if ← moreMembers isFirst then
      take
      let name ← text
      colon
      let item ← value turns
      entries turns false (Value.insertMember name item known)
    else return known

end

end Reader

/-- The value of a whole document. -/
def Value.ofText (text : String) : Except DocumentError Value :=
  (do Reader.value (2 * (← get).rest.length + 1) : Reader Value).readText text

end BlockMachine
