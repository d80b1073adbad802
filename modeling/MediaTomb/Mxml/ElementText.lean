/-
  Elements as they are asked for what is in them (`mxml/element.cc`): texts, children by their name,
  and attributes.

    * what is read back gives the same answers as what was printed, up to a text that is empty
      (`getChildText_joined`, `getAttribute_joined`);
    * what is printed is itself a text that can be sent inside an element (`goodText_print`,
      `no_cr_print`): a document in a document is escaped twice, and read back by reading twice.
-/
import MediaTomb.Mxml.PrintParse

namespace MediaTomb.Mxml

open Lib.Xml

/-! ## The code -/

def Element.name : Element → Str
  | .mk name _ _ => name

def Element.attributes : Element → List Attribute
  | .mk _ attributes _ => attributes

def Node.element? : Node → Option Element
  | .element el => some el
  | _ => none

def Node.text? : Node → Option (Option Str)
  | .text t _ => some t
  | _ => none

/-- The children that are elements. -/
def Element.elements (el : Element) : List Element := el.children.filterMap Node.element?

/-- `getText`: the texts one behind the other; nil if there is none. -/
def Element.getText (el : Element) : Option Str :=
  match el.children.filterMap Node.text? with
  | [] => none
  | texts => some (texts.flatMap fun text => text.getD [])

def Element.getChildByName (el : Element) (name : Str) : Option Element :=
  el.elements.find? fun child => child.name = name

def Element.getChildText (el : Element) (name : Str) : Option Str :=
  (el.getChildByName name).bind Element.getText

def Element.getAttribute (el : Element) (name : Str) : Option Str :=
  (el.attributes.find? fun a => a.name = name).map fun a => a.value

/-! ## Reading back -/

section

variable {el root : Element} {name : Str} {text : Str}

theorem elements_addText (text : Str) (nodes : List Node) :
    (addText text nodes).filterMap Node.element? = nodes.filterMap Node.element? := by
  unfold addText
  split
  · rfl
  · split
    · rfl
    · rfl

theorem elements_joinNodes (nodes : List Node) : (joinNodes nodes).filterMap Node.element? =
    (nodes.filterMap Node.element?).map Element.joined := by
  induction nodes with
  | nil => rfl
  | cons node nodes ih =>
    cases node with
    | text text _ =>
      rw [joinNodes, elements_addText]
      exact ih
    | element el =>
      rw [joinNodes]
      exact congrArg (el.joined :: ·) ih
    | comment _ _ =>
      rw [joinNodes]
      exact ih

theorem elements_joined (el : Element) : el.joined.elements = el.elements.map Element.joined := by
  obtain ⟨name, attributes, children⟩ := el
  exact elements_joinNodes children

theorem name_joined (el : Element) : el.joined.name = el.name := by
  obtain ⟨name, attributes, children⟩ := el
  rfl

/-- The texts of nodes, one behind the other. -/
def textOf (nodes : List Node) : Str :=
  (nodes.filterMap Node.text?).flatMap fun text => text.getD []

theorem textOf_text (t : Option Str) (vtype : ValueType) (nodes : List Node) :
    textOf (.text t vtype :: nodes) = t.getD [] ++ textOf nodes := rfl

theorem textOf_addText (text : Str) (nodes : List Node) :
    textOf (addText text nodes) = text ++ textOf nodes := by
  unfold addText
  by_cases hempty : text = []
  · rw [if_pos hempty, hempty]
    rfl
  · rw [if_neg hempty]
    split
    · rw [textOf_text, textOf_text]
      exact List.append_assoc text _ _
    · rw [textOf_text]
      rfl

theorem textOf_joinNodes (nodes : List Node) : textOf (joinNodes nodes) = textOf nodes := by
  induction nodes with
  | nil => rfl
  | cons node nodes ih =>
    cases node with
    | text text _ => rw [joinNodes, textOf_addText, ih, textOf_text]
    | element _ =>
      rw [joinNodes]
      exact ih
    | comment _ _ =>
      rw [joinNodes]
      exact ih

theorem getText_getD (el : Element) : el.getText.getD [] = textOf el.children := by
  unfold Element.getText textOf
  rcases el.children.filterMap Node.text? with _ | ⟨text, texts⟩
  · rfl
  · rfl

theorem getText_joined (el : Element) : el.joined.getText.getD [] = el.getText.getD [] := by
  rw [getText_getD, getText_getD]
  obtain ⟨name, attributes, children⟩ := el
  exact textOf_joinNodes children

theorem getChildByName_joined (el : Element) (name : Str) :
    el.joined.getChildByName name = (el.getChildByName name).map Element.joined := by
  unfold Element.getChildByName
  rw [elements_joined, List.find?_map]
  congr 2
  funext child
  exact congrArg (fun n => decide (n = name)) (name_joined child)

/-- **The text of a child** is what it was. -/
theorem getChildText_joined (h : root.joined = el.joined) (hchild : el.getChildText name = some text)
    (hne : text ≠ []) : root.getChildText name = some text := by
  obtain ⟨child, hfound, htext⟩ := Option.bind_eq_some_iff.mp hchild
  have hsame := congrArg (fun e => e.getChildByName name) h
  simp only [getChildByName_joined, hfound, Option.map_some] at hsame
  obtain ⟨child', hfound', hjoined⟩ := Option.map_eq_some_iff.mp hsame
  have hread : child'.getText.getD [] = text := by
    rw [← getText_joined child', hjoined, getText_joined, htext]
    rfl
  unfold Element.getChildText
  rw [hfound', Option.bind_some]
  rcases hgot : child'.getText with _ | got
  · rw [hgot] at hread
    exact absurd hread.symm hne
  · rw [hgot] at hread
    exact congrArg some hread

theorem attributes_joined (el : Element) :
    el.joined.attributes = el.attributes.map plainAttribute := by
  obtain ⟨name, attributes, children⟩ := el
  rfl

theorem getAttribute_plain (el : Element) (name : Str) :
    el.joined.getAttribute name = el.getAttribute name := by
  unfold Element.getAttribute
  rw [attributes_joined, List.find?_map, Option.map_map]
  rfl

/-- **An attribute** is what it was. -/
theorem getAttribute_joined (h : root.joined = el.joined) (name : Str) :
    root.getAttribute name = el.getAttribute name := by
  rw [← getAttribute_plain root, h, getAttribute_plain]

end

/-! ## A document in a document -/

/-- A byte that stays as it is when it is sent as text and read back. -/
def Sent (c : UInt8) : Prop := c ≠ 13 ∧ c ≠ 0x7f

section

variable {s name : Str} {c : UInt8}

theorem sent_bytes (h : s.all (fun c => c != 13 && c != 0x7f) = true) : ∀ c ∈ s, Sent c := by
  intro c hc
  have hboth := List.all_eq_true.mp h c hc
  rw [Bool.and_eq_true, bne_iff_ne, bne_iff_ne] at hboth
  exact hboth

theorem sent_name (h : IsName name) : ∀ c ∈ name, Sent c := by
  intro c hc
  refine ⟨?_, ?_⟩
  · rintro rfl
    exact absurd (h.isDelimiter _ hc) (by decide)
  · rintro rfl
    obtain ⟨d, ds, hd, hds, rfl⟩ := h
    have hchar : ∀ e ∈ d :: ds, isNameChar e = true := by
      intro e he
      rcases List.mem_cons.mp he with rfl | he
      · exact Bool.or_eq_true _ _ |>.mpr (Or.inl hd)
      · exact hds e he
    rcases Lib.Utf8.mem_encode hc with ⟨e, he, hsmall, hbyte⟩ | hlarge
    · have hnat : e.toNat = 0x7f := by
        have hmod := congrArg UInt8.toNat hbyte
        rw [UInt8.toNat_ofNat_of_lt' (by show e.toNat < 256; omega)] at hmod
        exact hmod.symm
      have hname := hchar e he
      unfold isNameChar isNameStartChar inRanges at hname
      rw [hnat] at hname
      exact absurd hname (by decide)
    · exact absurd hlarge (by decide)

theorem sent_escape (hs : ∀ c ∈ s, Printable c) (hcr : (13 : UInt8) ∉ s) :
    ∀ c ∈ Node.escape s, Sent c := by
  induction s with
  | nil => exact fun c hc => nomatch hc
  | cons d s ih =>
    obtain ⟨hd, hs⟩ := List.forall_mem_cons.mp hs
    rw [List.mem_cons, not_or] at hcr
    rw [escape_cons hd.ne_zero]
    intro c hc
    rcases List.mem_append.mp hc with hc | hc
    · rcases escapeChar_cases hd with ⟨w, hentity, -, hescape⟩ | ⟨-, hescape⟩
      · rw [hescape] at hc
        have hall : entities.all (fun entity => (38 :: entity.1).all fun c => c != 13 && c != 0x7f) =
            true := by decide
        exact sent_bytes (List.all_eq_true.mp hall _ hentity) c hc
      · rw [hescape, List.mem_singleton] at hc
        rw [hc]
        exact ⟨Ne.symm hcr.1, hd.1⟩
    · exact ih hs hcr.2 c hc

theorem sent_append {t : Str} (hs : ∀ c ∈ s, Sent c) (ht : ∀ c ∈ t, Sent c) :
    ∀ c ∈ s ++ t, Sent c := by
  intro c hc
  rcases List.mem_append.mp hc with hc | hc
  · exact hs c hc
  · exact ht c hc

theorem sent_attributes {attributes : List Attribute}
    (hgood : ∀ a ∈ attributes, IsName a.name ∧ GoodText a.value)
    (hsteady : ∀ a ∈ attributes, (13 : UInt8) ∉ a.value) :
    ∀ c ∈ attributes.flatMap printAttribute, Sent c := by
  intro c hc
  obtain ⟨a, ha, hc⟩ := List.mem_flatMap.mp hc
  obtain ⟨hname, hvalue⟩ := hgood a ha
  have hblank : ∀ c ∈ ([32] : Str), Sent c := sent_bytes rfl
  have hequals : ∀ c ∈ ([61, 34] : Str), Sent c := sent_bytes rfl
  have hquote : ∀ c ∈ ([34] : Str), Sent c := sent_bytes rfl
  exact sent_append hblank (sent_append (sent_name hname) (sent_append hequals
    (sent_append (sent_escape hvalue.printable (hsteady a ha)) hquote))) c hc

end

mutual

theorem Element.sent_print : ∀ (el : Element), el.Good → el.Steady → ∀ c ∈ el.print, Sent c
  | .mk name attributes children => by
    rintro ⟨hname, hattributes, hchildren⟩ ⟨hvalues, hnodes⟩
    have hless : ∀ c ∈ ([60] : Str), Sent c := sent_bytes rfl
    have hgreater : ∀ c ∈ ([62] : Str), Sent c := sent_bytes rfl
    have hslash : ∀ c ∈ ([60, 47] : Str), Sent c := sent_bytes rfl
    have hempty : ∀ c ∈ ([47, 62] : Str), Sent c := sent_bytes rfl
    rw [Element.print]
    refine sent_append hless (sent_append (sent_name hname)
      (sent_append (sent_attributes hattributes fun a ha => (hvalues a ha).2.2) ?_))
    split
    · exact hempty
    · exact sent_append hgreater (sent_append (sent_printNodes children hchildren hnodes)
        (sent_append hslash (sent_append (sent_name hname) hgreater)))

theorem sent_printNodes : ∀ (nodes : List Node), NodesGood nodes → NodesSteady nodes →
    ∀ c ∈ printNodes nodes, Sent c
  | [] => fun _ _ _ hc => nomatch hc
  | .element el :: nodes => fun hgood hsteady =>
    sent_append (el.sent_print hgood.1 hsteady.1) (sent_printNodes nodes hgood.2 hsteady.2)
  | .text _ _ :: nodes => fun hgood hsteady =>
    sent_append (sent_escape hgood.1.printable hsteady.1) (sent_printNodes nodes hgood.2 hsteady.2)
  | .comment .. :: _ => fun hgood => hgood.elim

end

section

variable {el : Element}

/-- **What is printed can be sent** as the text of an element. -/
theorem goodText_print (hgood : el.Good) (hsteady : el.Steady) : GoodText el.print :=
  ⟨el.characters_print hgood, fun hin => (el.sent_print hgood hsteady _ hin).2 rfl⟩

theorem no_cr_print (hgood : el.Good) (hsteady : el.Steady) : (13 : UInt8) ∉ el.print :=
  fun hin => (el.sent_print hgood hsteady _ hin).1 rfl

end

end MediaTomb.Mxml
