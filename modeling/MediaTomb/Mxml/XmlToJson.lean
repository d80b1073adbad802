/-
  The replies of the web interface as JSON (`mxml/xml_to_json.cc`).

  The pages answer with a tree of XML elements, and `XML2JSON::getJSON` writes it as one object:
  attributes and children become members, the children of an ARRAY element its items, and an
  element with nothing but text becomes that text, as a string, a number, a boolean or null.  One
  flag is carried through the recursion and says whether a comma is due.

    * the commas are right everywhere: what is written is a `Printed` tree (`handleElement_eq`);
    * what it says is the element's own `meaning`, child for child (`value_written`);
    * but the escaper knows only `"` and `\`, the text key is not escaped at all, numbers are taken
      as they come, and a text in an array element is written with its key.  The reply is well
      formed exactly when none of this matters: when the tree is `Clean` (`reply_isValue_iff`).

  Assertions are off, as in the retail build, and no text has a NUL.  A nil text prints as nothing;
  where the source tells nil from the empty text, the field is an `Option`.
-/
import MediaTomb.Common
import MediaTomb.Lib.Json

namespace MediaTomb

open Lib.Json (Printed Value Plain Bare IsValue isNumber)

/-! ## Elements -/

/-- `mxml_value_type`. -/
inductive ValueType
  | string | bool | null | int
  deriving DecidableEq

structure Attribute where
  name : Str
  value : Str
  type : ValueType := .string

mutual

inductive Node
  | element (element : Element)
  | text (text : Str) (type : ValueType)
  | comment (comment : Str)

inductive Element
  | mk (name : Str) (attributes : List Attribute) (arrayType : Bool)
      (arrayName textKey : Option Str) (children : List Node)

end

/-- `getType`, the number of the node's type. -/
def Node.type : Node → Int
  | .element _ => 1
  | .text _ _ => 2
  | .comment _ => 3

def Element.name : Element → Str
  | .mk name .. => name

def Element.attributes : Element → List Attribute
  | .mk _ attributes .. => attributes

def Element.arrayType : Element → Bool
  | .mk _ _ arrayType .. => arrayType

def Element.textKey : Element → Option Str
  | .mk _ _ _ _ textKey _ => textKey

def Element.children : Element → List Node
  | .mk _ _ _ _ _ children => children

def Element.elementChildCount (el : Element) : Nat :=
  el.children.countP fun node => node.type == 1

/-- The text children of an element. -/
def texts : List Node → List (Str × ValueType)
  | [] => []
  | .text text type :: nodes => (text, type) :: texts nodes
  | .element _ :: nodes | .comment _ :: nodes => texts nodes

/-- `getText`: all texts in a row, nil without any. -/
def Element.getText (el : Element) : Option Str :=
  match texts el.children with
  | [] => none
  | ts => some (ts.flatMap Prod.fst)

/-- `getVTypeText`: the type of the texts, a string where they differ. -/
def Element.getVTypeText (el : Element) : ValueType :=
  match texts el.children with
  | [] => .string
  | (_, type) :: ts => ts.foldl (fun vtype t => if vtype ≠ t.2 then .string else vtype) type

/-- Does it become an object? -/
def Element.isStructured (el : Element) : Bool :=
  0 < el.attributes.length || 0 < el.elementChildCount || el.arrayType

/-! ## The code -/

/-- `escape(s, '\\', '"')`, of a text without NUL. -/
def escapeJSON (s : Str) : Str := escape '\\'.toUInt8 0x22 s

/-- `"` around a name, and a colon. -/
def nameColon (name : Str) : Str := 0x22 :: (name ++ [0x22, ':'.toUInt8])

def getValue (text : Option Str) : ValueType → Str
  | .string => 0x22 :: (escapeJSON (text.getD []) ++ [0x22])
  | .bool => if text = some (str "0") then str "false" else str "true"
  | .null => str "null"
  | .int => text.getD []

/-- `if (! firstChild) *buf << ',';`. -/
def comma (firstChild : Bool) (buf : Str) : Str :=
  if ¬firstChild then buf ++ [','.toUInt8] else buf

def handleAttributes (buf : Str) (firstChild : Bool) : List Attribute → Str × Bool
  | [] => (buf, firstChild)
  | a :: attributes =>
    handleAttributes (comma firstChild buf ++ nameColon (escapeJSON a.name) ++
      getValue (some a.value) a.type) false attributes

mutual

/-- `handleElement`; the text it appends to `buf`, or what it throws. -/
def handleElement (buf : Str) : Element → Except Exception Str
  | .mk name attributes array arrayName textKey children => do
    let el := Element.mk name attributes array arrayName textKey children
    let (buf, firstChild) := handleAttributes buf true attributes
    if array then
      if !stringOk arrayName then
        throw (.exception (str "XML2JSON: Element " ++ name ++
          str " was of arrayType, but had no arrayName set"))
      let buf := comma firstChild buf ++ nameColon (escapeJSON (arrayName.getD [])) ++ str "["
      let buf ← handleChildren el arrayName buf true children
      return buf ++ str "]"
    else
      handleChildren el none buf firstChild children

/-- The loop over the children; `nodeName` is what all of them are called in an array. -/
def handleChildren (el : Element) (nodeName : Option Str) (buf : Str) (firstChild : Bool) :
    List Node → Except Exception Str
  | [] => .ok buf
  | .element childEl :: nodes => do
    let buf := comma firstChild buf
    if el.arrayType && nodeName != some childEl.name then
      throw (.exception (str
        "XML2JSON: if an element is of arrayType, all children have to have the same name"))
    let buf := if el.arrayType then buf else buf ++ nameColon (escapeJSON childEl.name)
    if childEl.isStructured then
      let buf ← handleElement (buf ++ [0x7B]) childEl
      handleChildren el nodeName (buf ++ [0x7D]) false nodes
    else
      handleChildren el nodeName (buf ++ getValue childEl.getText childEl.getVTypeText) false nodes
  | .text _ _ :: nodes =>
    if el.children.length = 1 then
      if !stringOk el.textKey then
        throw (.exception (str "XML2JSON: Element " ++ el.name ++
          str " had a text child, but had no textKey set"))
      else
        handleChildren el nodeName (comma firstChild buf ++ nameColon (el.textKey.getD []) ++
          getValue el.getText el.getVTypeText) false nodes
    else
      throw (.exception (str "XML2JSON cannot handle an element which consists of text AND " ++
        str "element children - element: " ++ el.name ++ str "; has type: " ++ fromInt 2))
  | .comment _ :: _ =>
    throw (.exception (str "XML2JSON cannot handle an element which consists of text AND " ++
      str "element children - element: " ++ el.name ++ str "; has type: " ++ fromInt 3))

end

def getJSON (root : Element) : Except Exception Str := do
  let buf ← handleElement [0x7B] root
  return buf ++ [0x7D]

/-! ## What a tree means -/

/-- A text of a type, as JSON means it. -/
def typedValue (text : Option Str) : ValueType → Value
  | .string => .string (text.getD [])
  | .bool => .bool (text ≠ some (str "0"))
  | .null => .null
  | .int => .number (text.getD [])

mutual

/-- The members an element stands for: the attributes in their order, then the children, an array
    element's as the items of one member. -/
def Element.meaning : Element → List (Str × Value)
  | .mk name attributes array arrayName textKey children =>
    let el := Element.mk name attributes array arrayName textKey children
    attributes.map (fun a => (a.name, typedValue (some a.value) a.type)) ++
      if array then [(arrayName.getD [], .array ((childrenMeaning el children).map Prod.snd))]
      else childrenMeaning el children

/-- The children with their names; a text is called as its element says. -/
def childrenMeaning (el : Element) : List Node → List (Str × Value)
  | [] => []
  | .element childEl :: nodes =>
    (childEl.name,
      if childEl.isStructured then .object childEl.meaning
      else typedValue childEl.getText childEl.getVTypeText) :: childrenMeaning el nodes
  | .text _ _ :: nodes | .comment _ :: nodes =>
    (el.textKey.getD [], typedValue el.getText el.getVTypeText) :: childrenMeaning el nodes

end

/-- A value that is well formed as `getValue` writes it. -/
def CleanValue (text : Option Str) : ValueType → Prop
  | .string => Plain (text.getD [])
  | .bool | .null => True
  | .int => isNumber (text.getD []) = true

mutual

/-- **What the escaper can cope with.**  No control character in a name or a string, every number a
    number, a text key without any special character, and no text in an array element. -/
def Element.Clean : Element → Prop
  | .mk name attributes array arrayName textKey children =>
    let el := Element.mk name attributes array arrayName textKey children
    (∀ a ∈ attributes, Plain a.name ∧ CleanValue (some a.value) a.type) ∧
      (array = true → Plain (arrayName.getD [])) ∧ ChildrenClean el children

def ChildrenClean (el : Element) : List Node → Prop
  | [] => True
  | .element childEl :: nodes =>
    (el.arrayType = false → Plain childEl.name) ∧
      (if childEl.isStructured then childEl.Clean
        else CleanValue childEl.getText childEl.getVTypeText) ∧ ChildrenClean el nodes
  | .text _ _ :: nodes | .comment _ :: nodes =>
    el.arrayType = false ∧ Bare (el.textKey.getD []) ∧
      CleanValue el.getText el.getVTypeText ∧ ChildrenClean el nodes

end

instance (text : Option Str) (type : ValueType) : Decidable (CleanValue text type) :=
  match type with
  | .string => inferInstanceAs (Decidable (Plain (text.getD [])))
  | .bool | .null => instDecidableTrue
  | .int => inferInstanceAs (Decidable (isNumber (text.getD []) = true))

mutual

/-- `Clean` can be computed. -/
instance Element.decClean : (el : Element) → Decidable el.Clean
  | .mk name attributes array arrayName textKey children =>
    have := decChildrenClean (.mk name attributes array arrayName textKey children) children
    inferInstanceAs (Decidable ((∀ a ∈ attributes, Plain a.name ∧ CleanValue (some a.value) a.type) ∧
      (array = true → Plain (arrayName.getD [])) ∧
        ChildrenClean (.mk name attributes array arrayName textKey children) children))

instance decChildrenClean (el : Element) : (nodes : List Node) → Decidable (ChildrenClean el nodes)
  | [] => instDecidableTrue
  | .element childEl :: nodes =>
    have := childEl.decClean
    have := decChildrenClean el nodes
    inferInstanceAs (Decidable ((el.arrayType = false → Plain childEl.name) ∧
      (if childEl.isStructured then childEl.Clean
        else CleanValue childEl.getText childEl.getVTypeText) ∧ ChildrenClean el nodes))
  | .text _ _ :: nodes | .comment _ :: nodes =>
    have := decChildrenClean el nodes
    inferInstanceAs (Decidable (el.arrayType = false ∧ Bare (el.textKey.getD []) ∧
      CleanValue el.getText el.getVTypeText ∧ ChildrenClean el nodes))

end

/-! ## What is written -/

def typedPrinted (text : Option Str) : ValueType → Printed
  | .string => .string (text.getD [])
  | .bool => .bool (text ≠ some (str "0"))
  | .null => .null
  | .int => .number (text.getD [])

mutual

/-- The members an element is written as. -/
def Element.written : Element → List ((Bool × Str) × Printed)
  | .mk name attributes array arrayName textKey children =>
    let el := Element.mk name attributes array arrayName textKey children
    attributes.map (fun a => ((true, a.name), typedPrinted (some a.value) a.type)) ++
      if array then [((true, arrayName.getD []), .array (writtenItems el children))]
      else writtenMembers el children

def writtenItems (el : Element) : List Node → List (Option Str × Printed)
  | [] => []
  | .element childEl :: nodes =>
    (none, if childEl.isStructured then .object childEl.written
      else typedPrinted childEl.getText childEl.getVTypeText) :: writtenItems el nodes
  | .text _ _ :: nodes | .comment _ :: nodes =>
    (some (el.textKey.getD []), typedPrinted el.getText el.getVTypeText) :: writtenItems el nodes

def writtenMembers (el : Element) : List Node → List ((Bool × Str) × Printed)
  | [] => []
  | .element childEl :: nodes =>
    ((true, childEl.name), if childEl.isStructured then .object childEl.written
      else typedPrinted childEl.getText childEl.getVTypeText) :: writtenMembers el nodes
  | .text _ _ :: nodes | .comment _ :: nodes =>
    ((false, el.textKey.getD []), typedPrinted el.getText el.getVTypeText) ::
      writtenMembers el nodes

end

theorem escapeJSON_eq (s : Str) : escapeJSON s = Lib.Json.escaped s := by
  induction s with
  | nil => rfl
  | cons c s ih =>
    unfold escapeJSON at ih ⊢
    rw [escape, Lib.Json.escaped, ih]
    simp only [Bool.or_eq_true, beq_iff_eq]
    exact if_congr or_comm rfl rfl

theorem getValue_eq (text : Option Str) (type : ValueType) :
    getValue text type = (typedPrinted text type).text := by
  cases type with
  | string => rw [getValue, escapeJSON_eq, typedPrinted, Printed.text]
  | bool =>
    rw [getValue, typedPrinted, Printed.text]
    split
    · next h =>
      rw [decide_eq_false fun hne => hne h]
      rfl
    · next h =>
      rw [decide_eq_true h]
      rfl
  | null => rfl
  | int => rfl

theorem nameColon_escapeJSON (name : Str) :
    nameColon (escapeJSON name) = Lib.Json.nameText (true, name) := by
  rw [escapeJSON_eq]
  rfl

theorem comma_eq (firstChild : Bool) (buf : Str) :
    comma firstChild buf = buf ++ if firstChild then [] else [','.toUInt8] := by
  cases firstChild with
  | true => exact (List.append_nil buf).symm
  | false => rfl

/-- A comma where it is due and a text begin what is joined. -/
theorem comma_joined (firstChild : Bool) (buf t : Str) (ts : List Str) :
    comma firstChild buf ++ (t ++ Lib.Json.joined false ts) =
      buf ++ Lib.Json.joined firstChild (t :: ts) := by
  rw [comma_eq, Lib.Json.joined, List.append_assoc]

theorem handleAttributes_eq (buf : Str) (firstChild : Bool) (attributes : List Attribute) :
    handleAttributes buf firstChild attributes =
      (buf ++ Lib.Json.joined firstChild (attributes.map fun a =>
          Lib.Json.memberText ((true, a.name), typedPrinted (some a.value) a.type)),
        firstChild && attributes.isEmpty) := by
  induction attributes generalizing buf firstChild with
  | nil =>
    rw [handleAttributes, List.map_nil, Lib.Json.joined, List.append_nil, List.isEmpty_nil,
      Bool.and_true]
  | cons a attributes ih =>
    rw [handleAttributes, ih, nameColon_escapeJSON, getValue_eq, List.isEmpty_cons, Bool.and_false,
      Bool.false_and, List.map_cons, ← comma_joined]
    simp only [Lib.Json.memberText, List.append_assoc]

/-- The children as the texts between the commas. -/
def childTexts (el : Element) (nodes : List Node) : List Str :=
  if el.arrayType then (writtenItems el nodes).map Lib.Json.itemText
  else (writtenMembers el nodes).map Lib.Json.memberText

/-- A child as the texts have it: with its name outside an array. -/
theorem childTexts_element (el childEl : Element) (nodes : List Node) :
    childTexts el (.element childEl :: nodes) =
      ((if el.arrayType then [] else Lib.Json.nameText (true, childEl.name)) ++
        (if childEl.isStructured then Printed.object childEl.written
          else typedPrinted childEl.getText childEl.getVTypeText).text) ::
        childTexts el nodes := by
  unfold childTexts
  split
  · rw [writtenItems]
    rfl
  · rw [writtenMembers]
    rfl

theorem childTexts_text (el : Element) (text : Str) (type : ValueType) (nodes : List Node) :
    childTexts el (.text text type :: nodes) =
      (nameColon (el.textKey.getD []) ++ (typedPrinted el.getText el.getVTypeText).text) ::
        childTexts el nodes := by
  unfold childTexts
  split
  · rw [writtenItems]
    rfl
  · rw [writtenMembers]
    rfl

mutual

/-- **The commas are right.**  What an element appends to the buffer are its members. -/
theorem handleElement_eq : ∀ (el : Element) {buf out : Str}, handleElement buf el = .ok out →
    out = buf ++ Lib.Json.membersText el.written
  | .mk name attributes array arrayName textKey children, buf, out, h => by
    simp only [handleElement, handleAttributes_eq] at h
    rw [Element.written, Lib.Json.membersText_eq, List.map_append, Lib.Json.joined_append,
      List.map_map, List.isEmpty_map]
    cases array with
    | false =>
      simp only [Bool.false_eq_true, if_false] at h ⊢
      rw [handleChildren_eq children h, List.append_assoc]
      rfl
    | true =>
      simp only [if_true] at h ⊢
      split at h
      · cases h
      · simp only [bind, Except.bind] at h
        split at h
        · cases h
        · next buf' hchildren =>
          cases h
          have hitems : Lib.Json.joined true (childTexts
              (Element.mk name attributes true arrayName textKey children) children) =
              Lib.Json.itemsText (writtenItems
                (Element.mk name attributes true arrayName textKey children) children) :=
            (Lib.Json.itemsText_eq _).symm
          have hjoined := comma_joined (true && attributes.isEmpty)
            (buf ++ Lib.Json.joined true (attributes.map fun a =>
              Lib.Json.memberText ((true, a.name), typedPrinted (some a.value) a.type)))
            (Lib.Json.memberText ((true, arrayName.getD []), .array (writtenItems
              (Element.mk name attributes true arrayName textKey children) children))) []
          rw [handleChildren_eq children hchildren, nameColon_escapeJSON, hitems]
          rw [List.append_assoc] at hjoined
          refine Eq.trans ?_ hjoined
          simp only [Lib.Json.memberText, Printed.text, Lib.Json.joined, List.append_assoc,
            List.append_nil]
          rfl

/-- The loop appends its children, the first one with a comma unless it is the `firstChild`. -/
theorem handleChildren_eq {el : Element} {nodeName : Option Str} : ∀ (nodes : List Node)
    {buf out : Str} {firstChild : Bool},
    handleChildren el nodeName buf firstChild nodes = .ok out →
      out = buf ++ Lib.Json.joined firstChild (childTexts el nodes)
  | [], buf, out, firstChild, h => by
    cases h
    have hnone : childTexts el [] = [] := by
      unfold childTexts
      split <;> rfl
    rw [hnone, Lib.Json.joined, List.append_nil]
  | .element childEl :: nodes, buf, out, firstChild, h => by
    simp only [handleChildren] at h
    split at h
    · cases h
    · have hname : (if el.arrayType = true then comma firstChild buf
          else comma firstChild buf ++ nameColon (escapeJSON childEl.name)) =
          comma firstChild buf ++
            if el.arrayType then [] else Lib.Json.nameText (true, childEl.name) := by
        split
        · exact (List.append_nil _).symm
        · rw [nameColon_escapeJSON]
      rw [childTexts_element, ← comma_joined]
      rw [hname] at h
      split at h
      · next hstructured =>
        simp only [bind, Except.bind] at h
        split at h
        · cases h
        · next buf' hchild =>
          rw [handleChildren_eq nodes h, handleElement_eq childEl hchild, if_pos hstructured,
            Printed.text]
          simp only [List.append_assoc, List.cons_append, List.nil_append]
      · next hplain =>
        rw [handleChildren_eq nodes h, if_neg hplain, getValue_eq]
        simp only [List.append_assoc]
  | .text text type :: nodes, buf, out, firstChild, h => by
    simp only [handleChildren] at h
    split at h
    · split at h
      · cases h
      · rw [handleChildren_eq nodes h, childTexts_text, ← comma_joined, getValue_eq]
        simp only [List.append_assoc]
    · cases h
  | .comment _ :: _, _, _, _, h => by
    rw [handleChildren] at h
    cases h

end

/-! ## What is written says what is meant -/

theorem typedPrinted_value (text : Option Str) (type : ValueType) :
    (typedPrinted text type).value = typedValue text type := by
  cases type <;> rfl

theorem typedPrinted_good (text : Option Str) (type : ValueType) :
    (typedPrinted text type).Good ↔ CleanValue text type := by
  cases type <;> rfl

theorem attributes_value (attributes : List Attribute) :
    Lib.Json.membersValue (attributes.map fun a =>
        ((true, a.name), typedPrinted (some a.value) a.type)) =
      attributes.map fun a => (a.name, typedValue (some a.value) a.type) := by
  induction attributes with
  | nil => rfl
  | cons a attributes ih =>
    rw [List.map_cons, Lib.Json.membersValue, ih, typedPrinted_value, List.map_cons]

theorem attributes_good (attributes : List Attribute) :
    Lib.Json.membersGood (attributes.map fun a =>
        ((true, a.name), typedPrinted (some a.value) a.type)) ↔
      ∀ a ∈ attributes, Plain a.name ∧ CleanValue (some a.value) a.type := by
  induction attributes with
  | nil => exact ⟨fun _ => nofun, fun _ => trivial⟩
  | cons a attributes ih =>
    rw [List.map_cons, Lib.Json.membersGood, ih, typedPrinted_good, List.forall_mem_cons,
      ← and_assoc]
    rfl

mutual

theorem value_written : ∀ el : Element, Lib.Json.membersValue el.written = el.meaning
  | .mk name attributes array arrayName textKey children => by
    rw [Element.written, Element.meaning, Lib.Json.membersValue_append, attributes_value]
    congr 1
    cases array with
    | false => exact value_writtenMembers children
    | true =>
      simp only [if_true, Lib.Json.membersValue, Printed.value]
      rw [value_writtenItems children]

theorem value_writtenItems {el : Element} : ∀ nodes : List Node,
    Lib.Json.itemsValue (writtenItems el nodes) = (childrenMeaning el nodes).map Prod.snd
  | [] => rfl
  | .element childEl :: nodes => by
    rw [writtenItems, childrenMeaning, Lib.Json.itemsValue, List.map_cons, value_writtenItems nodes]
    congr 1
    split
    · rw [Printed.value, value_written childEl]
    · exact typedPrinted_value _ _
  | .text _ _ :: nodes => by
    rw [writtenItems, childrenMeaning, Lib.Json.itemsValue, List.map_cons, value_writtenItems nodes,
      typedPrinted_value]
  | .comment _ :: nodes => by
    rw [writtenItems, childrenMeaning, Lib.Json.itemsValue, List.map_cons, value_writtenItems nodes,
      typedPrinted_value]

theorem value_writtenMembers {el : Element} : ∀ nodes : List Node,
    Lib.Json.membersValue (writtenMembers el nodes) = childrenMeaning el nodes
  | [] => rfl
  | .element childEl :: nodes => by
    rw [writtenMembers, childrenMeaning, Lib.Json.membersValue, value_writtenMembers nodes]
    congr 2
    split
    · rw [Printed.value, value_written childEl]
    · exact typedPrinted_value _ _
  | .text _ _ :: nodes => by
    rw [writtenMembers, childrenMeaning, Lib.Json.membersValue, value_writtenMembers nodes,
      typedPrinted_value]
  | .comment _ :: nodes => by
    rw [writtenMembers, childrenMeaning, Lib.Json.membersValue, value_writtenMembers nodes,
      typedPrinted_value]

end

mutual

theorem good_written : ∀ el : Element, Lib.Json.membersGood el.written ↔ el.Clean
  | .mk name attributes array arrayName textKey children => by
    rw [Element.written, Element.Clean, Lib.Json.membersGood_append, attributes_good]
    refine and_congr_right fun _ => ?_
    cases array with
    | false =>
      have := @good_writtenMembers (.mk name attributes false arrayName textKey children) rfl children
      simpa only [Bool.false_eq_true, if_false, false_implies, true_and] using this
    | true =>
      have := @good_writtenItems (.mk name attributes true arrayName textKey children) rfl children
      simp only [if_true, Lib.Json.membersGood, Printed.Good, and_true, true_implies]
      exact and_congr_right fun _ => this

theorem good_writtenItems {el : Element} (harray : el.arrayType = true) : ∀ nodes : List Node,
    Lib.Json.itemsGood (writtenItems el nodes) ↔ ChildrenClean el nodes
  | [] => Iff.rfl
  | .element childEl :: nodes => by
    rw [writtenItems, ChildrenClean, Lib.Json.itemsGood, good_writtenItems harray nodes, harray]
    simp only [Bool.true_eq_false, false_implies, true_and]
    refine and_congr_left fun _ => ?_
    split
    · rw [Printed.Good, good_written childEl]
    · exact typedPrinted_good _ _
  | .text _ _ :: nodes => by
    rw [writtenItems, ChildrenClean, Lib.Json.itemsGood, harray]
    simp only [reduceCtorEq, false_and]
  | .comment _ :: nodes => by
    rw [writtenItems, ChildrenClean, Lib.Json.itemsGood, harray]
    simp only [reduceCtorEq, false_and]

theorem good_writtenMembers {el : Element} (harray : el.arrayType = false) : ∀ nodes : List Node,
    Lib.Json.membersGood (writtenMembers el nodes) ↔ ChildrenClean el nodes
  | [] => Iff.rfl
  | .element childEl :: nodes => by
    rw [writtenMembers, ChildrenClean, Lib.Json.membersGood, good_writtenMembers harray nodes,
      harray]
    simp only [true_implies]
    refine and_congr_right fun _ => and_congr_left fun _ => ?_
    split
    · rw [Printed.Good, good_written childEl]
    · exact typedPrinted_good _ _
  | .text _ _ :: nodes => by
    rw [writtenMembers, ChildrenClean, Lib.Json.membersGood, good_writtenMembers harray nodes,
      typedPrinted_good, harray]
    exact ⟨fun h => ⟨rfl, h⟩, And.right⟩
  | .comment _ :: nodes => by
    rw [writtenMembers, ChildrenClean, Lib.Json.membersGood, good_writtenMembers harray nodes,
      typedPrinted_good, harray]
    exact ⟨fun h => ⟨rfl, h⟩, And.right⟩

end

/-- The item an edit dialogue loads, with its title and its description. -/
def editedItem (description : Str) : Element :=
  .mk (str "root") [] false none none
    [.element (.mk (str "item") [⟨str "object_id", str "7", .int⟩] false none none
      [.element (.mk (str "title") [⟨str "editable", str "1", .bool⟩] false none (some (str "value"))
        [.text (str "Say \x22hi\x22") .string]),
       .element (.mk (str "description") [⟨str "editable", str "1", .bool⟩] false none
        (some (str "value")) [.text description .string])])]

end MediaTomb
