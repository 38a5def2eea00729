/-!
# Scancodes

A scancode is the position of a key on the keyboard, whatever is printed on it. Many positions
have a name, and some of those can also be written in other ways. Names are compared without
regard to the case of the letters of the basic alphabet.
-/

namespace GameSetup

/-- The position of a key. -/
structure Scancode where
  code : UInt16
  deriving DecidableEq, Repr

namespace Scancode

/-- How many scancodes the keyboard table has room for. -/
def count : Nat := 512

/-- The scancode at an index of the keyboard table. -/
def ofIndex? (index : Int) : Option Scancode :=
  if 0 ≤ index ∧ index < count then some ⟨UInt16.ofNat index.toNat⟩ else none

/-- The index of a scancode, which may lie beyond the keyboard table. -/
def index (scancode : Scancode) : Nat :=
  scancode.code.toNat

/-- The names of the keys, by increasing scancode. -/
def names : List (UInt16 × String) := [
  (4, "A"), (5, "B"), (6, "C"), (7, "D"), (8, "E"), (9, "F"), (10, "G"), (11, "H"), (12, "I"),
  (13, "J"), (14, "K"), (15, "L"), (16, "M"), (17, "N"), (18, "O"), (19, "P"), (20, "Q"),
  (21, "R"), (22, "S"), (23, "T"), (24, "U"), (25, "V"), (26, "W"), (27, "X"), (28, "Y"),
  (29, "Z"), (30, "1"), (31, "2"), (32, "3"), (33, "4"), (34, "5"), (35, "6"), (36, "7"),
  (37, "8"), (38, "9"), (39, "0"), (40, "Return"), (41, "Escape"), (42, "Backspace"),
  (43, "Tab"), (44, "Space"), (45, "-"), (46, "="), (47, "["), (48, "]"), (49, "\\"), (50, "#"),
  (51, ";"), (52, "'"), (53, "`"), (54, ","), (55, "."), (56, "/"), (57, "CapsLock"), (58, "F1"),
  (59, "F2"), (60, "F3"), (61, "F4"), (62, "F5"), (63, "F6"), (64, "F7"), (65, "F8"), (66, "F9"),
  (67, "F10"), (68, "F11"), (69, "F12"), (70, "PrintScreen"), (71, "ScrollLock"), (72, "Pause"),
  (73, "Insert"), (74, "Home"), (75, "PageUp"), (76, "Delete"), (77, "End"), (78, "PageDown"),
  (79, "Right"), (80, "Left"), (81, "Down"), (82, "Up"), (83, "Numlock"), (84, "Keypad /"),
  (85, "Keypad *"), (86, "Keypad -"), (87, "Keypad +"), (88, "Keypad Enter"), (89, "Keypad 1"),
  (90, "Keypad 2"), (91, "Keypad 3"), (92, "Keypad 4"), (93, "Keypad 5"), (94, "Keypad 6"),
  (95, "Keypad 7"), (96, "Keypad 8"), (97, "Keypad 9"), (98, "Keypad 0"), (99, "Keypad ."),
  (101, "Application"), (102, "Power"), (103, "Keypad ="), (104, "F13"), (105, "F14"),
  (106, "F15"), (107, "F16"), (108, "F17"), (109, "F18"), (110, "F19"), (111, "F20"),
  (112, "F21"), (113, "F22"), (114, "F23"), (115, "F24"), (116, "Execute"), (117, "Help"),
  (118, "Menu"), (119, "Select"), (120, "Stop"), (121, "Again"), (122, "Undo"), (123, "Cut"),
  (124, "Copy"), (125, "Paste"), (126, "Find"), (127, "Mute"), (128, "VolumeUp"),
  (129, "VolumeDown"), (133, "Keypad ,"), (154, "SysReq"), (156, "Clear"), (224, "Left Ctrl"),
  (225, "Left Shift"), (226, "Left Alt"), (227, "Left GUI"), (228, "Right Ctrl"),
  (229, "Right Shift"), (230, "Right Alt"), (231, "Right GUI"), (257, "ModeSwitch")]

/-- Other ways to write the names of keys. -/
def aliases : List (String × UInt16) := [
  ("enter", 40), ("esc", 41), ("spacebar", 44), ("minus", 45), ("equals", 46), ("ins", 73),
  ("del", 76), ("pgup", 75), ("pgdn", 78), ("page up", 75), ("page down", 78), ("caps lock", 57),
  ("scroll lock", 71), ("print screen", 70), ("num lock", 83), ("left control", 224),
  ("right control", 228), ("lctrl", 224), ("rctrl", 228), ("lshift", 225), ("rshift", 229),
  ("lalt", 226), ("ralt", 230)]

/-- Whether two texts differ at most in the case of basic letters. -/
def sameLetters (a b : List Char) : Bool :=
  a.map Char.toLower == b.map Char.toLower

/-- The name of a key, if it has one. -/
def name? (scancode : Scancode) : Option String :=
  (names.find? (·.1 == scancode.code)).map (·.2)

/-- The key that a name stands for. Proper names are searched before the other ways. -/
def ofName? (name : List Char) : Option Scancode :=
  match names.find? fun entry => sameLetters entry.2.toList name with
  | some entry => some ⟨entry.1⟩
  | none =>
    (aliases.find? fun entry => sameLetters entry.1.toList name).map fun entry => ⟨entry.2⟩

/-- What a key is called on the screen. -/
def text (scancode : Scancode) : String :=
  match scancode.name? with
  | some name => name
  | none => "Scancode " ++ toString scancode.index

/-- An index of the table is the index of its scancode. -/
theorem index_of_ofIndex? {index : Int} {scancode : Scancode}
    (h : ofIndex? index = some scancode) : (scancode.index : Int) = index := by
  simp only [ofIndex?] at h
  split at h
  · next range =>
    simp only [count] at range
    injection h with h
    subst h
    simp only [Scancode.index, UInt16.toNat_ofNat']
    omega
  · simp at h

end Scancode

end GameSetup
