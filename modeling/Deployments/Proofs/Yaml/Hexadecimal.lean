import Mathlib
import Deployments.Source

/-!
Hexadecimal integers of any length in an inventory. Documents do not limit the digits of an integer
that is written in base sixteen, so a machine may have an index that has no decimal text.
-/

namespace Deployments

namespace Yaml

/-! ### A plain scalar at the end of a text -/

/-- The character neither ends a plain scalar nor may end one, and takes room on its line. -/
def isInner (c : Char) : Bool := !(isGap c || isBreak c || c == ':' || c == '\uFEFF')

theorem plainRun_of_inner {cs : List Char} (inner : cs.all isInner = true) :
    plainRun false cs = cs := by
  induction cs with
  | nil => rfl
  | cons c cs ih =>
    rw [List.all_cons, Bool.and_eq_true] at inner
    obtain ⟨head, tail⟩ := inner
    simp only [isInner, Bool.not_eq_true', Bool.or_eq_false_iff] at head
    simp [plainRun, head, ih tail]

theorem forward_of_inner {cs : List Char} (inner : cs.all isInner = true) (i line column : Nat) :
    Cursor.forward cs.length ⟨cs, i, line, column⟩ =
      ⟨[], i + cs.length, line, column + cs.length⟩ := by
  induction cs generalizing i column with
  | nil => rfl
  | cons c cs ih =>
    rw [List.all_cons, Bool.and_eq_true] at inner
    obtain ⟨head, tail⟩ := inner
    simp only [isInner, Bool.not_eq_true', Bool.or_eq_false_iff] at head
    have next : Cursor.next ⟨c :: cs, i, line, column⟩ = ⟨cs, i + 1, line, column + 1⟩ := by
      simp [Cursor.next, head]
    rw [List.length_cons, Cursor.forward, next, ih tail, Nat.add_right_comm i,
      Nat.add_right_comm column, ← Nat.add_assoc, ← Nat.add_assoc]

theorem plainScalar_of_inner {cs : List Char} (inner : cs.all isInner = true) (given : cs ≠ [])
    (outer : Int) (i line column : Nat) :
    (plainScalar false outer).run ⟨cs, i, line, column⟩ =
      .ok ((.scalar (String.ofList cs) true, false),
        ⟨[], i + cs.length, line, column + cs.length⟩) := by
  have moved := forward_of_inner inner i line column
  simp [plainScalar, plainText, plainRun_of_inner inner, StateT.run, bind, StateT.bind, get, getThe,
    MonadStateOf.get, StateT.get, Except.bind, pure, StateT.pure, Except.pure, given, Scan.skip,
    modify, modifyGet, MonadStateOf.modifyGet, StateT.modifyGet, moved, plainGap, Scan.runOf,
    Scan.lineBreak, Scan.peek, Cursor.peek, Cursor.forward]

namespace Lexer

/-- The state after a number of steps, each of which goes on. -/
def steps? : Nat → Lexer → Option Lexer
  | 0, l => some l
  | n + 1, l =>
    match l.step with
    | .ok (l, true) => steps? n l
    | _ => none

theorem run_of_steps? {n : Nat} {l m : Lexer} (taken : steps? n l = some m) (fuel : Nat) :
    run (fuel + n) l = run fuel m := by
  induction n generalizing l with
  | zero =>
    cases taken
    rfl
  | succ n ih =>
    rw [steps?] at taken
    split at taken
    next next stepped =>
      rw [← Nat.add_assoc, run, stepped]
      exact ih taken
    next => cases taken

theorem dropStaleKeys_of_nil {l : Lexer} (keys : l.keys = []) : l.dropStaleKeys = .ok l := by
  obtain ⟨cursor, made, count, flow, indent, outer, keyAllowed, _⟩ := l
  cases keys
  rfl

theorem unwind_of_le {l : Lexer} {column : Int} (inside : l.indent ≤ column) :
    l.unwind column = l := by
  have stays : ∀ fuel, closeBlocks column fuel l = l := by
    intro fuel
    cases fuel with
    | zero => rfl
    | succ fuel =>
      rw [closeBlocks]
      split
      · rfl
      · exact if_neg (Int.not_lt.mpr inside)
  rw [unwind, stays, ite_self]

/-- A number in base sixteen that ends the text, behind a blank, where no key may begin. -/
theorem step_last {l : Lexer} {digits : List Char} (inner : digits.all isInner = true)
    {i line column : Nat} (here : l.cursor = ⟨' ' :: '0' :: 'x' :: digits, i + 1, line, column⟩)
    (block : l.flow = 0) (noKey : l.keyAllowed = false) (keys : l.keys = [])
    (inside : l.indent ≤ column) :
    l.step = .ok ({ l with
      cursor := ⟨[], i + 2 + (digits.length + 2), line, column + 1 + (digits.length + 2)⟩
      made := .scalar (String.ofList ('0' :: 'x' :: digits)) true :: l.made
      count := l.count + 1 }, true) := by
  let m : Lexer := { l with cursor := ⟨'0' :: 'x' :: digits, i + 2, line, column + 1⟩ }
  have next : l.toNextToken = .ok m := by
    obtain ⟨_, made, count, _, indent, outer, _, _⟩ := l
    cases here
    cases block
    rfl
  have kept : m.dropStaleKeys = .ok m := dropStaleKeys_of_nil keys
  have same : m.unwind m.column = m := unwind_of_le <| by
    change l.indent ≤ ((column + 1 : Nat) : Int)
    omega
  have noted : m.noteKey = .ok m := by
    simp [noteKey, m, noKey]
    rfl
  have number : ('0' :: 'x' :: digits).all isInner = true := by
    rw [List.all_cons, List.all_cons, inner]
    rfl
  have scalar := plainScalar_of_inner number (List.cons_ne_nil _ _) l.indent (i + 2) line
    (column + 1)
  have dispatched : m.dispatch '0' (some 'x') = .ok { l with
      cursor := ⟨[], i + 2 + (digits.length + 2), line, column + 1 + (digits.length + 2)⟩
      made := .scalar (String.ofList ('0' :: 'x' :: digits)) true :: l.made
      count := l.count + 1 } := by
    rw [show m.dispatch '0' (some 'x') = m.plain from rfl, plain, noted]
    simp only [m, bind, Except.bind, block, read, bne_self_eq_false, scalar, Except.map, allowKey,
      emit, pure, Except.pure, noKey, List.length_cons]
  unfold step
  rw [next]
  simp only [bind, Except.bind, kept, same]
  rw [show m.cursor.rest = '0' :: 'x' :: digits from rfl]
  simp only [List.head?_cons, dispatched]
  rfl

/-- The text has ended, and with it every block. -/
theorem step_end {l m : Lexer} {i line column : Nat} (here : l.cursor = ⟨[], i, line, column⟩)
    (keys : l.keys = []) (inside : l.indent ≤ column)
    (closed : (l.unwind (-1)).dropKey = .ok m) : l.step = .ok (m, false) := by
  have next : l.toNextToken = .ok l := by
    obtain ⟨_, made, count, flow, indent, outer, keyAllowed, _⟩ := l
    cases here
    cases i <;> rfl
  have same : l.unwind l.column = l := unwind_of_le <| by
    rw [Lexer.column, here]
    exact inside
  unfold step
  rw [next]
  simp only [bind, Except.bind, dropStaleKeys_of_nil keys, same, here, closed]
  rfl

end Lexer

/-! ### The inventory of one machine -/

def machineHead : List Char :=
  "deployments:\n- name: a\n  instances:\n  - vm_cid: v\n    index:".toList

/-- The text of an inventory whose only machine has an index in base sixteen. -/
def machineText (digits : List Char) : List Char := machineHead ++ ' ' :: '0' :: 'x' :: digits

def machineTokens (index : String) : List Token :=
  [.blockMapping, .key, .scalar "deployments" true, .value, .blockEntry, .blockMapping, .key,
    .scalar "name" true, .value, .scalar "a" true, .key, .scalar "instances" true, .value,
    .blockEntry, .blockMapping, .key, .scalar "vm_cid" true, .value, .scalar "v" true, .key,
    .scalar "index" true, .value, .scalar index true, .blockEnd, .blockEnd, .blockEnd]

/-- The state in front of the index. -/
def beforeIndex (digits : List Char) : Lexer where
  cursor := ⟨' ' :: '0' :: 'x' :: digits, 60, 4, 10⟩
  made := [.value, .scalar "index" true, .key, .scalar "v" true, .value, .scalar "vm_cid" true,
    .key, .blockMapping, .blockEntry, .value, .scalar "instances" true, .key, .scalar "a" true,
    .value, .scalar "name" true, .key, .blockMapping, .blockEntry, .value,
    .scalar "deployments" true, .key, .blockMapping]
  count := 22
  flow := 0
  indent := 4
  outer := [2, 0, -1]
  keyAllowed := false
  keys := []

theorem steps?_machineText (digits : List Char) :
    Lexer.steps? 14 (Lexer.start (machineText digits)) = some (beforeIndex digits) := by
  unfold machineText machineHead beforeIndex
  cbv

theorem ofChars_machineText {digits : List Char} (inner : digits.all isInner = true) :
    Token.ofChars (machineText digits) = machineTokens (String.ofList ('0' :: 'x' :: digits)) := by
  have long : (machineText digits).length + 1 = digits.length + 48 + 1 + 1 + 14 := rfl
  have behind : (beforeIndex digits).indent ≤ ((10 : Nat) : Int) := by
    change (4 : Int) ≤ 10
    decide
  have last := Lexer.step_last inner (l := beforeIndex digits) rfl rfl rfl rfl behind
  have inside : (4 : Int) ≤ ((10 + 1 + (digits.length + 2) : Nat) : Int) := by omega
  rw [Token.ofChars, long, Lexer.run_of_steps? (steps?_machineText digits), Lexer.run, last]
  dsimp only
  rw [Lexer.run, Lexer.step_end rfl rfl inside rfl]
  rfl

def machineNode (tag : Tag) (index : String) : Node :=
  .mapping 26 .map [(.scalar .str "deployments", .sequence 22 .seq [.mapping 21 .map [
    (.scalar .str "name", .scalar .str "a"),
    (.scalar .str "instances", .sequence 13 .seq [.mapping 12 .map [
      (.scalar .str "vm_cid", .scalar .str "v"), (.scalar .str "index", .scalar tag index)]])]])]

theorem unfolded?_machineTokens (index : String) :
    Node.unfolded? (machineTokens index) =
      .ok (some (machineNode (.ofPlain index) index)) := by
  rfl

/-- The value of an inventory of one machine. -/
def machineValue (index : Int) : Value :=
  .dict [(.text "deployments", .list [.dict [(.text "name", .text "a"),
    (.text "instances", .list [.dict [(.text "vm_cid", .text "v"),
      (.text "index", .int index)]])]])]

theorem toValue_machineNode (order : SetOrder) {index : String} {n : Int}
    (written : Scalar.integer index.toList = .ok n) :
    (machineNode .int index).toValue order = .ok (machineValue n) := by
  unfold machineNode Node.toValue
  simp only [Node.build, Node.buildAll, Node.buildEntries, Node.tag, Tag.isCollection, Scalar.value,
    Text.chars_ofString, written]
  rfl

/-- The number that is written with a run of the greatest digit. -/
def greatest (n : Nat) : List Char := List.replicate (n + 1) 'f'

theorem greatest_append (n : Nat) : List.replicate n 'f' ++ ['f'] = greatest n :=
  List.replicate_succ'.symm

theorem contains_eq_false (words : List String) (cs : List Char)
    (other : ∀ word ∈ words, word.toList.head? ≠ some '0') :
    words.contains (String.ofList ('0' :: cs)) = false := by
  rw [Bool.eq_false_iff]
  intro member
  have head := other _ (List.contains_iff_mem.mp member)
  rw [String.toList_ofList] at head
  exact head rfl

theorem isNumber_hexadecimal (cs : List Char) : Tag.isNumber ('0' :: 'x' :: cs) = false := by
  have special := contains_eq_false [".inf", ".Inf", ".INF"] ('x' :: cs) (by decide)
  have word := contains_eq_false [".nan", ".NaN", ".NAN"] ('x' :: cs) (by decide)
  have unsigned : Tag.unsigned ('0' :: 'x' :: cs) = '0' :: 'x' :: cs := rfl
  simp only [Tag.isNumber, unsigned, special, word]
  rfl

theorem isInteger_greatest (n : Nat) : Tag.isInteger ('0' :: 'x' :: greatest n) = true := by
  simp [Tag.isInteger, Tag.unsigned, greatest]

theorem ofPlain_greatest (n : Nat) :
    Tag.ofPlain (String.ofList ('0' :: 'x' :: greatest n)) = .int := by
  have last : ('0' :: 'x' :: greatest n).reverse = 'f' :: (List.replicate n 'f' ++ ['x', '0']) := by
    rw [← greatest_append]
    simp
  have truth := contains_eq_false Tag.truthWords ('x' :: greatest n) (by decide)
  unfold Tag.ofPlain
  rw [Text.chars_ofString, String.toList_ofList, last]
  change (if Tag.truthWords.contains (String.ofList ('0' :: 'x' :: greatest n)) = true then .bool
    else if Tag.isNumber ('0' :: 'x' :: greatest n) = true then .float
    else if Tag.isInteger ('0' :: 'x' :: greatest n) = true then .int else _) = Tag.int
  rw [truth, isNumber_hexadecimal, isInteger_greatest]
  rfl

theorem ofDigits_replicate (n : Nat) : Decimal.ofDigits 16 (List.replicate n 15) = 16 ^ n - 1 := by
  induction n with
  | zero => rfl
  | succ n ih =>
    have positive : 0 < 16 ^ n := Nat.pow_pos (by decide)
    rw [List.replicate_succ', Decimal.ofDigits_append, ih, Nat.pow_succ]
    omega

theorem integerIn_greatest (n : Nat) :
    Scalar.integerIn 16 (greatest n) = .ok ((16 ^ (n + 1) - 1 : Nat) : Int) := by
  have digit : Scalar.digit? 16 'f' = some 15 := by decide
  have ascii : Text.asciiDigit 'f' = 'f' := by decide
  have trimmed : Text.trimBy Text.isSpace (greatest n) = greatest n := by
    have plain : Text.isSpace 'f' = false := by decide
    have kept : (greatest n).dropWhile Text.isSpace = greatest n := by
      rw [greatest, List.replicate_succ, List.dropWhile_cons_of_neg (by simp [plain])]
    have reversed : (greatest n).reverse = greatest n := List.reverse_replicate
    rw [Text.trimBy, kept, reversed, kept, reversed]
  have signed : Decimal.splitSign (greatest n) = (false, greatest n) := rfl
  have based : Scalar.withoutBase 16 (greatest n) = greatest n := rfl
  have values : ((greatest n).takeWhile fun c => (Scalar.digit? 16 c).isSome).filterMap
      (Scalar.digit? 16) = List.replicate (n + 1) 15 := by
    rw [greatest, List.takeWhile_replicate]
    simp [digit]
  have same : (greatest n).map Text.asciiDigit = greatest n := by
    rw [greatest, List.map_replicate, ascii]
  simp only [Scalar.integerIn, trimmed, same, signed, based, values, ofDigits_replicate]
  simp [greatest]

theorem integer_greatest (n : Nat) :
    Scalar.integer ('0' :: 'x' :: greatest n) = .ok ((16 ^ (n + 1) - 1 : Nat) : Int) := by
  have kept : ('0' :: 'x' :: greatest n).filter (· != '_') = '0' :: 'x' :: greatest n := by
    rw [greatest]
    simp
  have unsigned : Decimal.splitSign ('0' :: 'x' :: greatest n) =
      (false, '0' :: 'x' :: greatest n) := rfl
  simp only [Scalar.integer, kept, unsigned]
  simp [integerIn_greatest, Except.map]

theorem load_machineText (order : SetOrder) (n : Nat) :
    load order (machineText (greatest n)) =
      .ok (machineValue (16 ^ (n + 1) - 1 : Nat)) := by
  have inner : (greatest n).all isInner = true := by
    simp [greatest, List.all_replicate, show isInner 'f' = true by decide]
  have head : machineHead.all isAllowed = true := by decide +kernel
  have digit : isAllowed 'f' = true := by decide
  have allowed : (machineText (greatest n)).all isAllowed = true := by
    unfold machineText
    simp only [List.all_append, head, List.all_cons, greatest, List.all_replicate, digit]
    simp
    decide
  have number := (congrArg Scalar.integer String.toList_ofList).trans (integer_greatest n)
  simp only [load, allowed, ofChars_machineText inner, unfolded?_machineTokens, ofPlain_greatest]
  exact toValue_machineNode order number

end Yaml

/-! ### Its loading -/

theorem Source.lines_of_not_mem {cs : List Char} (plain : '\r' ∉ cs) : lines cs = cs := by
  fun_induction lines cs with
  | case1 | case2 => simp at plain
  | case3 c cs _ _ ih => rw [ih fun member => plain (List.mem_cons_of_mem c member)]
  | case4 => rfl

theorem Source.read_machineText {files : Files} {order : SetOrder} {kind : String} {path : Text}
    {n : Nat} (found : files.find path =
      .file (Text.encode (String.ofList (Yaml.machineText (Yaml.greatest n))))) :
    read files order kind path = .ok (Yaml.machineValue (16 ^ (n + 1) - 1 : Nat)) := by
  have head : '\r' ∉ Yaml.machineHead := by decide +kernel
  have plain : '\r' ∉ Yaml.machineText (Yaml.greatest n) := by
    unfold Yaml.machineText
    simp [head, Yaml.greatest]
  have same := lines_of_not_mem plain
  simp only [read, found, parse, Text.decode?_encode, String.toList_ofList, same,
    Yaml.load_machineText]
  rfl

namespace Inventory

def ofIndex (index : Int) : Inventory :=
  ⟨[{ name := "a"
      errands := []
      instances := [{ agentId := "", jobName := "", id := "", index := some index, jobState := "",
                      bootstrap := false, ips := [], az := "", vmId := "v", vmType := "",
                      resourcePool := "", resurrectionPaused := false, vitals := .absent,
                      processes := [] }]
      releases := []
      stemcells := [] }]⟩

theorem ofValue_machineValue (index : Int) :
    ofValue (Yaml.machineValue index) = .ok (ofIndex index) := by
  rfl

/-- A machine may have an index of any number of digits. -/
theorem load_machineText {files : Files} {order : SetOrder} {path : Text} {n : Nat}
    (found : files.find path =
      .file (Text.encode (String.ofList (Yaml.machineText (Yaml.greatest n))))) :
    load files order path = .ok (ofIndex (16 ^ (n + 1) - 1 : Nat)) := by
  rw [load, Source.read_machineText found]
  exact ofValue_machineValue _

end Inventory

end Deployments
