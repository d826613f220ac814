/-!
# Commands

Every character of a grid is a command. The reserved characters have fixed meanings; any other
character calls the codebox that is registered under it.

| characters    | meaning                                                   |
|---------------|-----------------------------------------------------------|
| space         | nothing                                                   |
| `0` to `9`    | push the digit                                            |
| `↊` `↋`       | push 10, 11                                               |
| `+ - * ,`     | pop a, pop b; push a + b, b - a, a * b, the floor of b / a |
| backquote     | pop a; push 1 if it is positive, else 0                   |
| `: . ~`       | duplicate, discard, swap                                  |
| `{` `}`       | move a value from the velocity stack, to it               |
| `@`           | return                                                    |
| `"`           | start a string                                            |
| `i` `o`       | read a character, write one                               |
| `!`           | write a debug dump                                        |
-/

namespace Gridwalk

inductive Op
  | nop
  | push (value : Int64)
  | add
  | subtract
  | multiply
  | divide
  | positive
  | duplicate
  | discard
  | swap
  | fromVelocity
  | toVelocity
  | input
  | output
  | debug
  deriving DecidableEq, Repr

inductive Command
  | op (op : Op)
  /-- Starts a string: characters are pushed up to the next quote. -/
  | quote
  | ret
  | call (c : Char)
  deriving DecidableEq, Repr

namespace Command

def decode : Char → Command
  | ' ' => .op .nop
  | '0' => .op (.push 0)
  | '1' => .op (.push 1)
  | '2' => .op (.push 2)
  | '3' => .op (.push 3)
  | '4' => .op (.push 4)
  | '5' => .op (.push 5)
  | '6' => .op (.push 6)
  | '7' => .op (.push 7)
  | '8' => .op (.push 8)
  | '9' => .op (.push 9)
  | '↊' => .op (.push 10)
  | '↋' => .op (.push 11)
  | '+' => .op .add
  | '-' => .op .subtract
  | '*' => .op .multiply
  | ',' => .op .divide
  | '\x60' => .op .positive
  | ':' => .op .duplicate
  | '.' => .op .discard
  | '~' => .op .swap
  | '{' => .op .fromVelocity
  | '}' => .op .toVelocity
  | '@' => .ret
  | '"' => .quote
  | 'i' => .op .input
  | 'o' => .op .output
  | '!' => .op .debug
  | c => .call c

def isReserved (c : Char) : Bool :=
  match decode c with
  | .call _ => false
  | _ => true

theorem eq_of_decode_eq_call {c d : Char} (h : decode c = .call d) : d = c := by
  unfold decode at h
  split at h <;> simp_all

end Command

end Gridwalk
