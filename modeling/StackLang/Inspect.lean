import StackLang.Machine
import StackLang.Table
import StackLang.Log.Record

/-!
# Looking at a machine

The state of a machine as text for a reader and as a log record.
-/

set_option autoImplicit false

namespace StackLang.Machine

/-- The operands, the bottom one first. -/
def operands (m : Machine) : List Int64 := m.stack.reverse

/-- The next instruction in words. -/
def nextText (m : Machine) : String :=
  match m.next? with
  | some i => i.text
  | none => "halted"

/-- The address, the next instruction and the counts of a machine. -/
def registerTable (m : Machine) : Table :=
  { title := "Machine"
    header := ["IP", "Next", "Steps", "Depth"]
    rows := [[.num m.ip, .str m.nextText, .num m.steps, .num m.stack.length]] }

/-- The operands with their depth, the topmost first. -/
def stackTable (m : Machine) : Table :=
  { title := "Operand Stack"
    header := ["Depth", "Value"]
    rows := m.stack.mapIdx fun depth v => [.num depth, .num v.toInt] }

/-- The state of a machine for a reader. -/
def describe (m : Machine) : String :=
  "==============State@" ++ toString m.ip ++ "==============\n" ++
  m.registerTable.render ++ "\n" ++ m.stackTable.render ++ "\n" ++
  "====================================\n"

/-- The state of a machine as a log record. -/
def checkpoint (m : Machine) : Log.Record :=
  { level := Log.Level.debug, message := "StateCheckpoint",
    values := [("IP", .int m.ip), ("Steps", .int m.steps), ("Stack", .ints m.operands)] }

/-- The size of the static memory and how much of it is in use. -/
def memoryText (m : Machine) : String :=
  toString m.memory.size ++ " bytes, " ++ toString m.memory.nonzero ++ " nonzero"

end StackLang.Machine
