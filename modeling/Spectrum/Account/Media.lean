import Mathlib.Data.List.Infix
import Spectrum.Lib.Search
import Spectrum.Account.Message

/-!
# Media of a message

`NetworkPluginServer::wrapIncomingMedia` with its helpers. The images of the XHTML of a message are
found one after the other with `image_expr`. The mode `split` makes parts of the message: one for each
image, and one for each text between them. It moves through the XHTML and the body at the same time:
`document` is what it finds in the XHTML, `bodyText` the body with a URL for each image, and `Restores`
says that the parts are the images and the texts in their order.
-/

namespace Spectrum.Account.Media

open Lib

/-! ## Trimming -/

def istartsWith (s t : List Char) : Bool := (t.map Char.toUpper).isPrefixOf (s.map Char.toUpper)

def iendsWith (s t : List Char) : Bool := istartsWith s.reverse t.reverse

/-- The texts that `xhtml_trim` takes off. -/
def blanks : List (List Char) :=
  [" ".toList, "\n".toList, "\t".toList, "<br>".toList, "<br/>".toList]

def eraseStart (s t : List Char) : List Char := if istartsWith s t then s.drop t.length else s

def eraseEnd (s t : List Char) : List Char := if iendsWith s t then s.take (s.length - t.length) else s

/-- The loop `while (match)`, which ends with a pass that erases nothing. -/
def whileMatch (erase : List Char → List Char → List Char) (s : List Char) : List Char :=
  if (blanks.foldl erase s).length < s.length then whileMatch erase (blanks.foldl erase s) else s
termination_by s.length

def xhtmlTrim (s : List Char) : List Char := whileMatch eraseEnd (whileMatch eraseStart s)

/-- `" \n\t"`. -/
def isBlank (c : Char) : Bool := c ∈ [' ', '\n', '\t']

def plaintextTrim (text : List Char) : List Char :=
  (text.reverse.dropWhile isBlank).reverse.dropWhile isBlank

/-! ## Messages -/

/-- A message that is converted. An absent body is told from an empty one. -/
structure Draft where
  type : MessageType := .chat
  body : Option String := none
  subject : String := ""
  payloads : List Payload := []
  deriving DecidableEq, Repr

namespace Draft

def toMessage (d : Draft) : Message :=
  .plain { type := d.type, body := d.body.getD "", subject := d.subject, payloads := d.payloads }

def xhtmlOf : Payload → Option String
  | .xhtml body => some body
  | _ => none

def oobOf : Payload → Option String
  | .oob url _ => some url
  | _ => none

/-- `getPayload<XHTMLIMPayload>`. -/
def xhtml (d : Draft) : Option String := d.payloads.findSome? xhtmlOf

/-- The URLs of the OOB payloads. -/
def oobs (d : Draft) : List String := d.payloads.filterMap oobOf

def addOobPayload (url description : String) (d : Draft) : Draft :=
  { d with payloads := d.payloads ++ [.oob url description] }

end Draft

/-- The subject is one of the payloads that are copied. -/
def copySwiftMessage (msg : Draft) (xhtml body : List Char) : Draft where
  body := some (String.ofList body)
  subject := msg.subject
  payloads :=
    msg.payloads.filter (fun p => (Draft.xhtmlOf p).isNone) ++ [.xhtml (String.ofList xhtml)]

/-! ## The loop -/

/-- A match of `image_expr`: the text before it, `match[0]`, `match[1]` and the text behind it. -/
structure ImageMatch (s : List Char) where
  text : List Char
  tag : List Char
  url : List Char
  rest : List Char
  eq : s = text ++ tag ++ rest
  img : "<img".toList <+: tag
  url_ne : url ≠ []

theorem ImageMatch.length_rest {s : List Char} (m : ImageMatch s) : m.rest.length < s.length := by
  have hlength := congrArg List.length m.eq
  have htag := m.img.length_le
  have hpos : 0 < "<img".toList.length := by decide
  rw [List.length_append, List.length_append] at hlength
  omega

/-- `boost::regex_search` with `image_expr`. -/
abbrev ImageSearch := (s : List Char) → Option (ImageMatch s)

inductive OobMode
  | wrapAll | exclusive | split
  deriving DecidableEq, Repr

/-- `service.oob_split` and `service.oob_replace_body`. -/
structure Settings where
  oobSplit : Bool := false
  oobReplaceBody : Bool := false
  deriving DecidableEq, Repr

def Settings.mode (st : Settings) : OobMode :=
  if st.oobSplit then .split else if st.oobReplaceBody then .exclusive else .wrapAll

/-- The variables of the loop; `bodyRest` is the body from `body_pos` on. -/
structure Progress where
  msg : Draft
  result : List Draft := []
  matchCount : Nat := 0
  firstUrl : List Char := []
  bodyRest : List Char

namespace Progress

/-- The variables before the loop. -/
def start (msg : Draft) (body : List Char) : Progress where
  msg := msg
  bodyRest := body

/-- A text is posted if anything is left of it. -/
def post (xhtmlPrev bodyPrev : List Char) (s : Progress) : Progress :=
  if xhtmlTrim xhtmlPrev ≠ [] ∨ plaintextTrim bodyPrev ≠ [] then
    { s with
      result := s.result ++ [copySwiftMessage s.msg (xhtmlTrim xhtmlPrev) (plaintextTrim bodyPrev)] }
  else s

/-- The part before a match. -/
def postText (text url : List Char) (s : Progress) : Progress :=
  match find url s.bodyRest with
  | some (bodyPrev, rest) => { s.post text bodyPrev with bodyRest := rest }
  | none => s.post text []

/-- A match. -/
def postImage (mode : OobMode) (tag url : List Char) (s : Progress) : Progress :=
  if mode = .split then
    { s with
      result := s.result ++ [(copySwiftMessage s.msg tag url).addOobPayload (String.ofList url) ""] }
  else { s with msg := s.msg.addOobPayload (String.ofList url) "" }

/-- `matchCount` and `firstUrl` of a match. -/
def count (url : List Char) (s : Progress) : Progress :=
  { s with
    matchCount := s.matchCount + 1
    firstUrl := if s.firstUrl = [] then url else s.firstUrl }

/-- One pass of the loop. -/
def next (mode : OobMode) {pos : List Char} (m : ImageMatch pos) (s : Progress) : Progress :=
  let s := s.count m.url
  let s := if mode = .split ∧ m.text ≠ [] then s.postText m.text m.url else s
  s.postImage mode m.tag m.url

/-- The loop over the matches, with `xhtml_pos` at its end. -/
def loop (search : ImageSearch) (mode : OobMode) (pos : List Char) (s : Progress) :
    Progress × List Char :=
  match search pos with
  | none => (s, pos)
  | some m => if mode = .exclusive then (s.next mode m, pos) else loop search mode m.rest (s.next mode m)
termination_by pos.length
decreasing_by exact m.length_rest

/-- What follows the loop. -/
def finish (mode : OobMode) (pos : List Char) (s : Progress) : List Draft :=
  let s := if mode = .split ∧ pos ≠ [] then s.post pos s.bodyRest else s
  -- the message is pushed as a pointer: a later change of its body shows
  let msg := if s.matchCount ≠ 0 ∧ mode = .exclusive then { s.msg with body := some (String.ofList s.firstUrl) }
    else s.msg
  if mode = .split then s.result else s.result ++ [msg]

end Progress

/-- What keeps a message from being converted. -/
inductive Failure
  | absentBody | malformedTimestamp
  deriving DecidableEq, Repr

def wrapIncomingMedia (search : ImageSearch) (st : Settings) (msg : Draft) :
    Except Failure (List Draft) :=
  match msg.xhtml with
  | none => .ok [msg]
  | some xhtml =>
    if "<img".toList <:+: xhtml.toList then
      match msg.body with
      | none => .error .absentBody
      | some body =>
        let r := Progress.loop search st.mode xhtml.toList (.start msg body.toList)
        .ok (r.1.finish st.mode r.2)
    else .ok [msg]

/-! ## What the parts are -/

/-- An image with the text directly before it. -/
structure Image where
  text : List Char
  tag : List Char
  url : List Char
  deriving DecidableEq, Repr

/-- The images of an XHTML text, and the text behind the last. -/
def document (search : ImageSearch) (pos : List Char) : List Image × List Char :=
  match search pos with
  | none => ([], pos)
  | some m => (⟨m.text, m.tag, m.url⟩ :: (document search m.rest).1, (document search m.rest).2)
termination_by pos.length
decreasing_by all_goals exact m.length_rest

section Document

variable {search : ImageSearch} {pos : List Char}

theorem document_none (h : search pos = none) : document search pos = ([], pos) := by
  rw [document, h]

theorem document_some {m : ImageMatch pos} (h : search pos = some m) : document search pos =
    (⟨m.text, m.tag, m.url⟩ :: (document search m.rest).1, (document search m.rest).2) := by
  rw [document, h]

theorem infix_of_images {images : List Image} {text : List Char}
    (h : document search pos = (images, text)) (himages : images ≠ []) : "<img".toList <:+: pos := by
  cases hsearch : search pos with
  | none =>
    rw [document_none hsearch] at h
    cases h
    exact absurd rfl himages
  | some m =>
    have hinfix : m.tag <:+: m.text ++ m.tag ++ m.rest := List.infix_append _ _ _
    rw [← m.eq] at hinfix
    exact m.img.isInfix.trans hinfix

end Document

section Parts

variable (plain : List Char → List Char) (msg : Draft)

/-- The body for an XHTML text: its texts as plain text, and a URL for each image. -/
def bodyText : List Image → List Char → List Char
  | [], text => plain text
  | i :: images, text => plain i.text ++ i.url ++ bodyText images text

/-- The part for a text, which is left out when nothing but white space is left of it. -/
def IsText (body : List Char) (parts : List Draft) : Prop :=
  (parts = [] ∧ plaintextTrim body = []) ∨
    ∃ m, parts = [m] ∧ m.body = some (String.ofList (plaintextTrim body)) ∧ m.oobs = msg.oobs

/-- The part for an image has one OOB payload more than the message. -/
def IsImage (i : Image) (part : Draft) : Prop :=
  part.body = some (String.ofList i.url) ∧ part.oobs = msg.oobs ++ [String.ofList i.url]

/-- The parts are the images and the texts between them. -/
inductive Restores : List Image → List Char → List Draft → Prop
  | last {text : List Char} {parts : List Draft} (h : IsText msg (plain text) parts) :
      Restores [] text parts
  | image {i : Image} {images : List Image} {text : List Char} {before : List Draft} {part : Draft}
      {parts : List Draft} (hbefore : IsText msg (plain i.text) before) (hpart : IsImage msg i part)
      (h : Restores images text parts) : Restores (i :: images) text (before ++ part :: parts)

/-- Text is found before an image or behind the last. -/
def HasText (images : List Image) (text : List Char) : Prop := text ≠ [] ∨ ∃ i ∈ images, i.text ≠ []

/-- Every image with a text behind it, near or far, has one before it. -/
def Spaced : List Image → List Char → Prop
  | [], _ => True
  | i :: images, text => (HasText images text → i.text ≠ []) ∧ Spaced images text

/-- Every image with a text before it has its URL first at its own place. -/
def Located : List Image → List Char → Prop
  | [], _ => True
  | i :: images, text =>
    (i.text ≠ [] → FirstAt i.url (plain i.text) (bodyText plain images text)) ∧ Located images text

/-- No URL stands in the body, of which `done` is the first part, before its own place. -/
def Unrepeated (done : List Char) : List Image → List Char → Prop
  | [], _ => True
  | i :: images, text =>
    FirstAt i.url (done ++ plain i.text) (bodyText plain images text) ∧
      (∃ c ∈ i.url, isBlank c = false) ∧
        Unrepeated (done ++ plain i.text ++ i.url) images text

end Parts

variable {plain : List Char → List Char} {msg : Draft}

theorem oobs_copySwiftMessage (msg : Draft) (xhtml body : List Char) :
    (copySwiftMessage msg xhtml body).oobs = msg.oobs := by
  unfold Draft.oobs copySwiftMessage
  rw [List.filterMap_append, List.filterMap_filter]
  refine (List.append_nil _).trans (congrArg (List.filterMap · _) (funext fun p => ?_))
  cases p <;> rfl

namespace Progress

variable {s : Progress}

theorem post_eq (text body : List Char) (s : Progress) :
    ∃ parts, s.post text body = { s with result := s.result ++ parts } ∧ IsText s.msg body parts := by
  unfold post
  split
  · exact ⟨_, rfl, Or.inr ⟨_, rfl, rfl, oobs_copySwiftMessage _ _ _⟩⟩
  · rename_i h
    obtain ⟨-, hbody⟩ := not_or.mp h
    exact ⟨[], by rw [List.append_nil], Or.inl ⟨rfl, not_not.mp hbody⟩⟩

theorem isImage_part (msg : Draft) (i : Image) :
    IsImage msg i ((copySwiftMessage msg i.tag i.url).addOobPayload (String.ofList i.url) "") := by
  refine ⟨rfl, ?_⟩
  have hoobs := oobs_copySwiftMessage msg i.tag i.url
  unfold Draft.oobs at hoobs ⊢
  rw [Draft.addOobPayload, List.filterMap_append, hoobs]
  rfl

/-- A match without text before it does not move through the body. -/
theorem next_adjacent {pos : List Char} {m : ImageMatch pos} (h : m.text = []) (s : Progress) :
    ∃ part, (s.next .split m).msg = s.msg ∧ (s.next .split m).result = s.result ++ [part] ∧
      (s.next .split m).bodyRest = s.bodyRest ∧ IsImage s.msg ⟨m.text, m.tag, m.url⟩ part := by
  unfold next
  simp only [h, ne_eq, not_true_eq_false, and_false, if_false]
  exact ⟨_, rfl, rfl, rfl, isImage_part s.msg _⟩

/-- A match with text before it, whose URL is found behind `a`. -/
theorem next_text {pos a after : List Char} {m : ImageMatch pos} (h : m.text ≠ [])
    (hrest : s.bodyRest = a ++ m.url ++ after) (hfirst : FirstAt m.url a after) :
    ∃ before part, (s.next .split m).msg = s.msg ∧
      (s.next .split m).result = s.result ++ (before ++ [part]) ∧
      (s.next .split m).bodyRest = after ∧ IsText s.msg a before ∧
      IsImage s.msg ⟨m.text, m.tag, m.url⟩ part := by
  obtain ⟨parts, hpost, hparts⟩ := post_eq m.text a (s.count m.url)
  have hfind : find m.url (s.count m.url).bodyRest = some (a, after) := by
    rw [count, hrest]
    exact find_of_firstAt hfirst
  have htextPart : (s.count m.url).postText m.text m.url =
      { s.count m.url with result := s.result ++ parts, bodyRest := after } := by
    rw [postText, hfind]
    exact congrArg (fun s : Progress => { s with bodyRest := after }) hpost
  unfold next
  simp only [ne_eq, h, not_false_eq_true, and_self, if_true, htextPart]
  refine ⟨parts, _, rfl, ?_, rfl, hparts, isImage_part s.msg _⟩
  exact List.append_assoc _ _ _

theorem finish_split (pos : List Char) (s : Progress) :
    s.finish .split pos = (if pos = [] then s else s.post pos s.bodyRest).result := by
  unfold finish
  by_cases hpos : pos = []
  · simp only [hpos, ne_eq, not_true_eq_false, and_false, if_false, if_true]
  · simp only [hpos, ne_eq, not_false_eq_true, and_self, if_false, if_true]

/-- The parts that are made from `xhtml_pos` on. -/
def partsFrom (search : ImageSearch) (pos : List Char) (s : Progress) : List Draft :=
  (loop search .split pos s).1.finish .split (loop search .split pos s).2

theorem partsFrom_none {search : ImageSearch} {pos : List Char} (h : search pos = none)
    (s : Progress) : partsFrom search pos s =
      (if pos = [] then s else s.post pos s.bodyRest).result := by
  have hloop : loop search .split pos s = (s, pos) := by
    rw [loop, h]
  rw [partsFrom, hloop, finish_split]

theorem partsFrom_some {search : ImageSearch} {pos : List Char} {m : ImageMatch pos}
    (h : search pos = some m) (s : Progress) :
    partsFrom search pos s = partsFrom search m.rest (s.next .split m) := by
  have hloop : loop search .split pos s = loop search .split m.rest (s.next .split m) := by
    rw [loop, h]
    rfl
  rw [partsFrom, hloop, partsFrom]

theorem result_postText (text url : List Char) (s : Progress) :
    ∃ parts, (s.postText text url).result = s.result ++ parts := by
  unfold postText
  split
  · rename_i bodyPrev rest hfind
    obtain ⟨parts, hpost, -⟩ := post_eq text bodyPrev s
    exact ⟨parts, congrArg result hpost⟩
  · obtain ⟨parts, hpost, -⟩ := post_eq text [] s
    exact ⟨parts, congrArg result hpost⟩

theorem result_next {pos : List Char} (m : ImageMatch pos) (s : Progress) :
    ∃ parts, (s.next .split m).result = s.result ++ parts := by
  unfold next
  by_cases htext : m.text = []
  · simp only [htext, ne_eq, not_true_eq_false, and_false, if_false]
    exact ⟨_, rfl⟩
  · obtain ⟨parts, hparts⟩ := result_postText m.text m.url (s.count m.url)
    simp only [ne_eq, htext, not_false_eq_true, and_self, if_true]
    exact ⟨_, (congrArg (· ++ [_]) hparts).trans (List.append_assoc _ _ _)⟩

theorem result_next_ne_nil {pos : List Char} (m : ImageMatch pos) (s : Progress) :
    (s.next .split m).result ≠ [] :=
  List.append_ne_nil_of_right_ne_nil _ (List.cons_ne_nil _ _)

/-- What has been posted stays. -/
theorem partsFrom_append (search : ImageSearch) (pos : List Char) (s : Progress) :
    ∃ parts, partsFrom search pos s = s.result ++ parts := by
  induction pos using document.induct search generalizing s with
  | case1 pos hnone =>
    obtain ⟨parts, hpost, -⟩ := post_eq pos s.bodyRest s
    rw [partsFrom_none hnone]
    split
    · exact ⟨[], (List.append_nil _).symm⟩
    · exact ⟨parts, congrArg result hpost⟩
  | case2 pos m hsome ih =>
    obtain ⟨first, hfirst⟩ := result_next m s
    obtain ⟨parts, hparts⟩ := ih (s.next .split m)
    exact ⟨first ++ parts, by rw [partsFrom_some hsome, hparts, hfirst, List.append_assoc]⟩

/-- The loop and the text behind it, when the cursor is where it should be. -/
theorem partsFrom_restores (search : ImageSearch) (hplain : plain [] = []) (pos : List Char)
    (s : Progress) (hspaced : Spaced (document search pos).1 (document search pos).2)
    (hlocated : Located plain (document search pos).1 (document search pos).2)
    (hrest : HasText (document search pos).1 (document search pos).2 →
      s.bodyRest = bodyText plain (document search pos).1 (document search pos).2) :
    ∃ parts, partsFrom search pos s = s.result ++ parts ∧
      Restores plain s.msg (document search pos).1 (document search pos).2 parts := by
  induction pos using document.induct search generalizing s with
  | case1 pos hnone =>
    rw [document_none hnone] at hrest ⊢
    rw [partsFrom_none hnone]
    by_cases hpos : pos = []
    · refine ⟨[], ?_, Restores.last (Or.inl ⟨rfl, ?_⟩)⟩
      · rw [if_pos hpos, List.append_nil]
      · rw [hpos, hplain]
        rfl
    · obtain ⟨parts, hpost, hparts⟩ := post_eq pos s.bodyRest s
      rw [hrest (Or.inl hpos)] at hparts
      rw [if_neg hpos, hpost]
      exact ⟨parts, rfl, Restores.last hparts⟩
  | case2 pos m hsome ih =>
    rw [document_some hsome] at hspaced hlocated hrest ⊢
    rw [partsFrom_some hsome]
    by_cases htext : m.text = []
    · obtain ⟨part, hmsg, hresult, -, hpart⟩ := next_adjacent htext s
      obtain ⟨parts, hparts, hrestores⟩ := ih (s.next .split m) hspaced.2 hlocated.2 fun h =>
        absurd htext (hspaced.1 h)
      have hbefore : IsText s.msg (plain m.text) [] := by
        rw [htext, hplain]
        exact Or.inl ⟨rfl, rfl⟩
      rw [hmsg] at hrestores
      refine ⟨[] ++ part :: parts, ?_, Restores.image hbefore hpart hrestores⟩
      rw [hparts, hresult, List.append_assoc]
      rfl
    · have hhere := hrest (Or.inr ⟨_, List.mem_cons_self, htext⟩)
      obtain ⟨before, part, hmsg, hresult, hafter, hbefore, hpart⟩ :=
        next_text htext hhere (hlocated.1 htext)
      obtain ⟨parts, hparts, hrestores⟩ := ih (s.next .split m) hspaced.2 hlocated.2 fun _ => hafter
      rw [hmsg] at hrestores
      refine ⟨before ++ part :: parts, ?_, Restores.image hbefore hpart hrestores⟩
      rw [hparts, hresult]
      simp only [List.append_assoc, List.singleton_append]

end Progress

/-! ## Where the cursor is not -/

/-- What is left of a text without its white space. -/
def letters (s : List Char) : List Char := s.filter fun c => !isBlank c

theorem letters_append (s t : List Char) : letters (s ++ t) = letters s ++ letters t :=
  List.filter_append _ _

theorem letters_reverse (s : List Char) : letters s.reverse = (letters s).reverse :=
  List.filter_reverse

theorem letters_dropWhile (s : List Char) : letters (s.dropWhile isBlank) = letters s := by
  induction s with
  | nil => rfl
  | cons c s ih =>
    by_cases h : isBlank c = true
    · rw [List.dropWhile_cons_of_pos h, ih, letters, letters,
        List.filter_cons_of_neg (by rw [h]; exact Bool.false_ne_true)]
    · rw [List.dropWhile_cons_of_neg h]

theorem letters_plaintextTrim (s : List Char) : letters (plaintextTrim s) = letters s := by
  rw [plaintextTrim, letters_dropWhile, letters_reverse, letters_dropWhile, letters_reverse,
    List.reverse_reverse]

/-- A text that is trimmed like its end has only white space before it. -/
theorem letters_eq_nil {a b : List Char} (h : plaintextTrim (a ++ b) = plaintextTrim b) :
    letters a = [] := by
  have hletters := congrArg letters h
  rw [letters_plaintextTrim, letters_plaintextTrim, letters_append] at hletters
  exact List.append_left_eq_self.mp hletters

theorem IsText.trim_eq {a b : List Char} {parts : List Draft} (ha : IsText msg a parts)
    (hb : IsText msg b parts) : plaintextTrim a = plaintextTrim b := by
  rcases ha with ⟨rfl, ha⟩ | ⟨m, rfl, ha, -⟩
  · rcases hb with ⟨-, hb⟩ | ⟨m, hm, -⟩
    · rw [ha, hb]
    · cases hm
  · rcases hb with ⟨hm, -⟩ | ⟨m', hm, hb, -⟩
    · cases hm
    · cases hm
      exact String.ofList_injective (Option.some.inj (ha.symm.trans hb))

theorem IsImage.oobs_ne {i : Image} {part : Draft} (h : IsImage msg i part) :
    part.oobs ≠ msg.oobs := by
  rw [h.2]
  intro heq
  exact List.cons_ne_nil _ _ (List.append_right_eq_self.mp heq)

/-- The parts of a text and of the image behind it can be told from the rest. -/
theorem Restores.inv {i j : Image} {images : List Image} {text a : List Char} {part : Draft}
    {before parts : List Draft} (h : Restores plain msg (i :: images) text (before ++ part :: parts))
    (hbefore : IsText msg a before) (hpart : IsImage msg j part) :
    IsText msg (plain i.text) before ∧ Restores plain msg images text parts := by
  generalize hall : before ++ part :: parts = all at h
  cases h with
  | image hbefore' hpart' h' =>
    rename_i before' part' parts'
    have hsame : before = before' ∧ part :: parts = part' :: parts' := by
      rcases hbefore with ⟨rfl, -⟩ | ⟨m, rfl, -, hm⟩
      · rcases hbefore' with ⟨rfl, -⟩ | ⟨m', rfl, -, hm'⟩
        · exact ⟨rfl, hall⟩
        · cases hall
          exact absurd hm' hpart.oobs_ne
      · rcases hbefore' with ⟨rfl, -⟩ | ⟨m', rfl, -, hm'⟩
        · cases hall
          exact absurd hm hpart'.oobs_ne
        · cases hall
          exact ⟨rfl, rfl⟩
    obtain ⟨rfl, hrest⟩ := hsame
    cases hrest
    exact ⟨hbefore', h'⟩

theorem Unrepeated.located {done : List Char} {images : List Image} {text : List Char}
    (h : Unrepeated plain done images text) : Located plain images text := by
  induction images generalizing done with
  | nil => trivial
  | cons i images ih => exact ⟨fun _ => h.1.suffix, ih h.2.2⟩

/-- Without a text before the image, the texts are those behind it. -/
theorem HasText.of_adjacent {i : Image} {images : List Image} {text : List Char}
    (h : HasText (i :: images) text) (hi : i.text = []) : HasText images text := by
  rcases h with hend | ⟨i', hmem, htext⟩
  · exact Or.inl hend
  · rcases List.mem_cons.mp hmem with rfl | hmem
    · exact absurd hi htext
    · exact Or.inr ⟨i', hmem, htext⟩

theorem letters_ne_nil {s : List Char} (h : ∃ c ∈ s, isBlank c = false) : letters s ≠ [] := by
  obtain ⟨c, hc, hblank⟩ := h
  have hmem : c ∈ letters s := List.mem_filter.mpr ⟨hc, by rw [hblank]; rfl⟩
  exact List.ne_nil_of_mem hmem

/-- Where the parts are right, nothing but white space is left over by the cursor before a text. -/
theorem spaced_of_restores (search : ImageSearch) (hplain : plain [] = []) (pos : List Char)
    (s : Progress) (done pending : List Char)
    (hunrepeated : Unrepeated plain (done ++ pending) (document search pos).1 (document search pos).2)
    (hrest : s.bodyRest = pending ++ bodyText plain (document search pos).1 (document search pos).2)
    {parts : List Draft} (hparts : Progress.partsFrom search pos s = s.result ++ parts)
    (h : Restores plain s.msg (document search pos).1 (document search pos).2 parts) :
    Spaced (document search pos).1 (document search pos).2 ∧
      (HasText (document search pos).1 (document search pos).2 → letters pending = []) := by
  induction pos using document.induct search generalizing s done pending parts with
  | case1 pos hnone =>
    rw [document_none hnone] at hrest h ⊢
    refine ⟨trivial, fun htext => ?_⟩
    have hpos : pos ≠ [] := htext.resolve_right fun ⟨_, hi, _⟩ => absurd hi List.not_mem_nil
    obtain ⟨parts', hpost, hparts'⟩ := Progress.post_eq pos s.bodyRest s
    rw [Progress.partsFrom_none hnone, if_neg hpos, hpost] at hparts
    cases h with
    | last h =>
      rw [← List.append_cancel_left hparts] at h
      rw [hrest] at hparts'
      exact letters_eq_nil (hparts'.trim_eq h)
  | case2 pos m hsome ih =>
    rw [document_some hsome] at hunrepeated hrest h ⊢
    rw [Progress.partsFrom_some hsome] at hparts
    obtain ⟨hfirst, hurl, hunrepeated⟩ := hunrepeated
    obtain ⟨parts', hparts'⟩ := Progress.partsFrom_append search m.rest (s.next .split m)
    by_cases htext : m.text = []
    · obtain ⟨part, hmsg, hresult, hafter, hpart⟩ := Progress.next_adjacent htext s
      rw [bodyText] at hrest
      simp only [htext, hplain, List.nil_append, List.append_nil] at hrest hunrepeated
      rw [← List.append_assoc] at hrest
      have hall : parts = [] ++ part :: parts' := by
        rw [hparts', hresult, List.append_assoc] at hparts
        exact (List.append_cancel_left hparts).symm
      rw [hall] at h
      have hnothing : IsText s.msg [] [] := Or.inl ⟨rfl, rfl⟩
      obtain ⟨-, h⟩ := h.inv hnothing hpart
      rw [← hmsg] at h
      rw [List.append_assoc] at hunrepeated
      obtain ⟨hspaced, hletters⟩ := ih (s.next .split m) done (pending ++ m.url) hunrepeated
        (hafter.trans hrest) hparts' h
      have hnone : ¬ HasText (document search m.rest).1 (document search m.rest).2 := fun hbehind => by
        have hnil := hletters hbehind
        rw [letters_append, List.append_eq_nil_iff] at hnil
        exact letters_ne_nil hurl hnil.2
      exact ⟨⟨fun hbehind => absurd hbehind hnone, hspaced⟩,
        fun hhere => absurd (hhere.of_adjacent htext) hnone⟩
    · have hhere : s.bodyRest = pending ++ plain m.text ++ m.url ++
          bodyText plain (document search m.rest).1 (document search m.rest).2 := by
        rw [hrest, bodyText]
        simp only [List.append_assoc]
      rw [List.append_assoc] at hfirst
      obtain ⟨before, part, hmsg, hresult, hafter, hbefore, hpart⟩ :=
        Progress.next_text htext hhere hfirst.suffix
      have hall : parts = before ++ part :: parts' := by
        rw [hparts', hresult, List.append_assoc, List.append_assoc] at hparts
        exact (List.append_cancel_left hparts).symm
      rw [hall] at h
      obtain ⟨htextPart, h⟩ := h.inv hbefore hpart
      rw [← hmsg] at h
      obtain ⟨hspaced, -⟩ := ih (s.next .split m) _ [] (by rw [List.append_nil]; exact hunrepeated)
        hafter hparts' h
      exact ⟨⟨fun _ => htext, hspaced⟩, fun _ => letters_eq_nil (hbefore.trim_eq htextPart)⟩

theorem wrapIncomingMedia_eq {search : ImageSearch} {st : Settings} (hsplit : st.oobSplit = true)
    {msg : Draft} {xhtml : String} (hxhtml : msg.xhtml = some xhtml) {images : List Image}
    {text body : List Char} (hdocument : document search xhtml.toList = (images, text))
    (himages : images ≠ []) (hbody : msg.body = some (String.ofList body)) :
    wrapIncomingMedia search st msg =
      .ok (Progress.partsFrom search xhtml.toList (.start msg body)) := by
  have hmode : st.mode = .split := if_pos hsplit
  have himg : "<img".toList <:+: xhtml.toList := infix_of_images hdocument himages
  rw [wrapIncomingMedia, hxhtml]
  simp only [if_pos himg, hbody, hmode, String.toList_ofList]
  rfl

/-- A message with images is split into its images and texts if every image with a text behind it has
one before it, and every URL behind a text stands first at its own place. Where no URL stands in the
body before its place, the first is necessary. -/
theorem wrapIncomingMedia_split (search : ImageSearch) (plain : List Char → List Char)
    (hplain : plain [] = []) (st : Settings) (hsplit : st.oobSplit = true) (msg : Draft)
    (xhtml : String) (hxhtml : msg.xhtml = some xhtml) (images : List Image) (text : List Char)
    (hdocument : document search xhtml.toList = (images, text)) (himages : images ≠ [])
    (hbody : msg.body = some (String.ofList (bodyText plain images text))) :
    ∃ parts, wrapIncomingMedia search st msg = .ok parts ∧
      (Spaced images text → Located plain images text → Restores plain msg images text parts) ∧
      (Unrepeated plain [] images text →
        (Restores plain msg images text parts ↔ Spaced images text)) := by
  have hsufficient : Spaced images text → Located plain images text → Restores plain msg images text
      (Progress.partsFrom search xhtml.toList (.start msg (bodyText plain images text))) := by
    intro hspaced hlocated
    have hparts := @Progress.partsFrom_restores plain search hplain xhtml.toList
      (.start msg (bodyText plain images text))
    rw [hdocument] at hparts
    obtain ⟨parts, hparts, hrestores⟩ := hparts hspaced hlocated fun _ => rfl
    rw [hparts]
    exact hrestores
  refine ⟨_, wrapIncomingMedia_eq hsplit hxhtml hdocument himages hbody, hsufficient,
    fun hunrepeated => ⟨fun hrestores => ?_, fun hspaced => ?_⟩⟩
  · have hconverse := @spaced_of_restores plain search hplain xhtml.toList
      (.start msg (bodyText plain images text)) [] []
    rw [hdocument] at hconverse
    exact (hconverse hunrepeated rfl rfl hrestores).1
  · exact hsufficient hspaced hunrepeated.located

namespace Sample

/-- The search on a text that has no other image. -/
def search : ImageSearch := fun s =>
  match h : find "<img src='u'>".toList s with
  | none => none
  | some (text, rest) =>
    some ⟨text, "<img src='u'>".toList, ['u'], rest, find_eq h, by decide, by decide⟩

def image (text : String) : Image := ⟨text.toList, "<img src='u'>".toList, ['u']⟩

def message (xhtml body : String) : Draft where
  body := some body
  payloads := [.xhtml xhtml]

/-- One image between two texts. -/
def found {s text rest : String} (hs : s = text ++ "<img src='u'>" ++ rest) : ImageMatch s.toList :=
  ⟨text.toList, "<img src='u'>".toList, ['u'], rest.toList, by subst hs; simp, by decide, by decide⟩

theorem document_image {s text rest : String} (hs : s = text ++ "<img src='u'>" ++ rest)
    (h : search s.toList = some (found hs)) (hrest : search rest.toList = none) :
    document search s.toList = ([image text], rest.toList) := by
  rw [document_some h]
  have hdocument : document search (found hs).rest = ([], rest.toList) := document_none hrest
  rw [hdocument]
  rfl

end Sample

open Media.Sample in
theorem wrapIncomingMedia_split_ok : ∃ parts,
    wrapIncomingMedia search { oobSplit := true } (message "a <img src='u'> b" "a u b") = .ok parts ∧
      Restores id (message "a <img src='u'> b" "a u b") [image "a "] " b".toList parts := by
  obtain ⟨parts, hparts, hrestores, -⟩ := wrapIncomingMedia_split search id rfl { oobSplit := true } rfl
    (message "a <img src='u'> b" "a u b") _ rfl [image "a "] " b".toList
    (@document_image _ "a " " b" rfl rfl rfl) (by decide) rfl
  refine ⟨parts, hparts, hrestores ?_ ?_⟩
  · exact ⟨fun _ => by decide, trivial⟩
  · exact ⟨fun _ => firstAt_of_find rfl, trivial⟩

open Media.Sample in
/-- The text behind an image at the start has the URL of the image once more. -/
theorem not_restores_adjacent : ∃ parts,
    wrapIncomingMedia search { oobSplit := true } (message "<img src='u'>ab" "uab") = .ok parts ∧
      parts.map Draft.body = [some "u", some "uab"] ∧
      ¬ Restores id (message "<img src='u'>ab" "uab") [image ""] "ab".toList parts := by
  have hxhtml : "<img src='u'>ab" = "" ++ "<img src='u'>" ++ "ab" := rfl
  have hsearch : search "<img src='u'>ab".toList = some (found hxhtml) := rfl
  have hrest : search (found hxhtml).rest = none := rfl
  have hdocument := document_image hxhtml hsearch hrest
  refine ⟨_, wrapIncomingMedia_eq rfl rfl hdocument (by decide) rfl, ?_, fun hrestores => ?_⟩
  · have hne : (found hxhtml).rest ≠ [] := List.cons_ne_nil _ _
    have htrim : plaintextTrim ['u', 'a', 'b'] ≠ [] := by decide
    rw [Progress.partsFrom_some hsearch, Progress.partsFrom_none hrest, if_neg hne, Progress.post]
    refine (congrArg (fun s : Progress => s.result.map Draft.body) (if_pos (Or.inr htrim))).trans ?_
    rfl
  · have hconverse := @spaced_of_restores id search rfl "<img src='u'>ab".toList
      (.start (message "<img src='u'>ab" "uab") "uab".toList) [] []
    rw [hdocument] at hconverse
    have hunrepeated : Unrepeated id [] [image ""] "ab".toList :=
      ⟨firstAt_of_find rfl, ⟨'u', by decide, by decide⟩, trivial⟩
    have hspaced := (hconverse hunrepeated rfl rfl hrestores).1
    exact hspaced.1 (Or.inl (by decide)) rfl

end Spectrum.Account.Media
