import LocaleStrings.Proofs.Component.Items

/-!
# Tags inside a template

The search for the end of a template passes over the name of every other tag inside, and then goes
on behind the name: the values of the tag's attributes are searched as if they were content.

* `Holder`: a template that holds a tag with an attribute, whose value is left open;
* **`Holder.nestedTail_opening`**: the search goes on inside the value;
* `Holder.blocks_balanced`: a value in which templates are balanced does no harm;
* `Holder.blocks_closed`: one with a closing tag ends the block, and what follows in it is read as
  blocks of the component;
* `Holder.blocks_opened`, `Holder.blocks_commented`: one that opens a template or a comment makes
  the block swallow what follows the template;
* **`Holder.blocks_value`**: all four, with what becomes of the block `i18n`.
-/

namespace LocaleStrings.Component

/-! ## Unclosed blocks -/

/-- A block whose closing tag is not found is the last one. -/
theorem blocks_unclosed {t : Tag} (ht : t.selfClosing = false) {inside : Text}
    (htail : tail t.name.text inside = []) :
    blocks ('<' :: (t.text ++ inside)) = [Item.block 0 t inside] := by
  have hsize := Text.sizeUpTo_append ('<' :: t.text) inside
  have hcontent : Text.upTo inside [] = inside := by
    have h := Text.upTo_append inside []
    rwa [List.append_nil] at h
  have hnone : ∀ offset, blocksFrom offset (afterTag []) = [] := by
    intro offset
    rw [show afterTag [] = [] from rfl, blocksFrom]
  rw [List.cons_append] at hsize
  rw [blocks, blocksFrom_open 0 (openTag?_text t inside)]
  simp only [Tag.meaning, ht, Bool.false_eq_true, if_false, htail, hsize, hcontent, hnone]
  rfl

theorem afterComment_eq_nil {c : Text} (h : EndsNoComment c) : afterComment c = [] := by
  fun_induction afterComment c with
  | case1 => rfl
  | case2 cs => exact absurd (List.prefix_append ['-', '-', '>'] cs).isInfix h
  | case3 c cs _ ih => exact ih h.of_cons

/-! ## The block `i18n` behind a template -/

theorem isI18n_template (offset : Nat) {t : Tag} (ht : isTemplateName t.name.text = true)
    (content : Text) : (Item.block offset t content).isI18n = false := by
  refine Bool.eq_false_iff.mpr fun hi18n => ?_
  have hshort : t.name.text.length = 4 := length_of_same hi18n
  have hlong : t.name.text.length = 8 := length_of_same ht
  omega

/-- Behind a block of another name, the block `i18n` is the one of the rest. -/
theorem i18nBlock?_behind {source rest : Text} {b : Block} {k : Nat} (hb : b.isI18n = false)
    (h : blocks source = b :: (blocks rest).map (Block.shift k)) :
    i18nBlock? source = (i18nBlock? rest).map (Block.shift k) := by
  have hshift : Block.isI18n ∘ Block.shift k = Block.isI18n := rfl
  rw [i18nBlock?, i18nBlocks, h, List.filter_cons_of_neg (by rw [hb]; decide), List.filter_map,
    hshift, List.head?_map]
  rfl

theorem i18nBlock?_alone {source : Text} {b : Block} (hb : b.isI18n = false)
    (h : blocks source = [b]) : i18nBlock? source = none := by
  rw [i18nBlock?, i18nBlocks, h, List.filter_cons_of_neg (by rw [hb]; decide)]
  rfl

/-! ## A tag with an attribute inside a template -/

/-- **A template that holds the tag of another element with an attribute in double quotes**, between
texts in which templates are balanced. The value of the attribute is left open. -/
structure Holder where
  tag : Tag
  opens : tag.selfClosing = false
  nests : isTemplateName tag.name.text = true
  close : ClosingTag tag.name.text
  before : Text
  before_balanced : TemplateBody before
  inner : TagName
  inner_other : isTemplateName inner.text = false
  attr : Text
  attr_chars : ∀ c ∈ attr, isAttrNameChar c = true
  attr_plain : '<' ∉ attr
  after : Text
  after_balanced : TemplateBody after

namespace Holder

variable (f : Holder)

/-- The content up to the value. -/
def opening : Text := f.before ++ '<' :: (f.inner.text ++ ' ' :: (f.attr ++ ['=', '"']))

/-- The content behind the value. -/
def rest : Text := '"' :: '>' :: f.after

/-- The content with the value `v`. -/
def content (v : Text) : Text := f.opening ++ (v ++ f.rest)

/-- The template with the value `v`. -/
def text (v : Text) : Text := '<' :: (f.tag.text ++ (f.content v ++ f.close.text))

variable {name : Text} {depth : Nat}

/-- **The search for the end of a template goes on inside the value.** -/
theorem nestedTail_opening (hname : isTemplateName name = true) (x : Text) :
    nestedTail name depth (f.opening ++ x) = nestedTail name depth x := by
  have hinner : TemplateBody ('<' :: (f.inner.text ++ [])) :=
    .other f.inner_other (fun c hc => by cases hc) .nil
  have hapart : StartsApart (' ' :: (f.attr ++ ['=', '"']) ++ x) := startsApart_cons (by decide) _
  have hchars : '<' ∉ ' ' :: (f.attr ++ ['=', '"']) := by
    simp only [List.mem_cons, List.mem_append, List.not_mem_nil, or_false, not_or]
    exact ⟨by decide, f.attr_plain, by decide, by decide⟩
  have hlt : StartsApart ('<' :: (f.inner.text ++ []) ++ (' ' :: (f.attr ++ ['=', '"']) ++ x)) :=
    startsApart_lt _
  have hform : f.opening ++ x = f.before ++
      ('<' :: (f.inner.text ++ []) ++ (' ' :: (f.attr ++ ['=', '"']) ++ x)) := by
    simp [opening]
  rw [hform, nestedTail_body hname f.before_balanced hlt, nestedTail_body hname hinner hapart,
    nestedTail_chars hchars]

theorem startsApart_rest (x : Text) : StartsApart (f.rest ++ x) := startsApart_cons (by decide) _

theorem nestedTail_rest (hname : isTemplateName name = true) {x : Text} (hx : StartsApart x) :
    nestedTail name depth (f.rest ++ x) = nestedTail name depth x := by
  have hform : f.rest ++ x = '"' :: '>' :: (f.after ++ x) := by simp [rest]
  rw [hform, nestedTail_char (by decide), nestedTail_char (by decide),
    nestedTail_body hname f.after_balanced hx]

/-- The search from the beginning of a template on comes to the value. -/
theorem tail_opening (x : Text) :
    tail f.tag.name.text (f.opening ++ x) = nestedTail f.tag.name.text 0 x := by
  rw [tail_eq, if_pos f.nests, f.nestedTail_opening f.nests]

theorem text_eq (v s : Text) :
    f.text v ++ s = '<' :: (f.tag.text ++ (f.content v ++ (f.close.text ++ s))) := by
  simp [text]

/-! ## What a value does -/

/-- A template whose block ends at the closing tag `close`, wherever that is. -/
theorem blocks_closing {content : Text} (close : ClosingTag f.tag.name.text) (rest : Text)
    (htail : tail f.tag.name.text (content ++ (close.text ++ rest)) = close.text ++ rest) :
    blocks ('<' :: (f.tag.text ++ (content ++ close.text)) ++ rest)
      = Item.block 0 f.tag content :: (blocks rest).map
        (Block.shift (Text.size ('<' :: (f.tag.text ++ (content ++ close.text))))) := by
  rw [blocks, blocksFrom_element 0 f.opens close rest htail, blocksFrom_shift, blocks]

/-- **A value in which templates are balanced does no harm.** -/
theorem blocks_balanced {v : Text} (hv : TemplateBody v) (s : Text) :
    blocks (f.text v ++ s) = Item.block 0 f.tag (f.content v) ::
      (blocks s).map (Block.shift (Text.size (f.text v))) := by
  refine f.blocks_closing f.close s ?_
  rw [content, List.append_assoc, List.append_assoc, f.tail_opening,
    nestedTail_body f.nests hv (f.startsApart_rest _),
    f.nestedTail_rest f.nests (startsApart_closing f.close s), nestedTail_close_zero]

/-- **A closing tag in a value ends the block**, and the rest of the value is outside of it. -/
theorem blocks_closed {body : Text} (hbody : TemplateBody body) (c : ClosingTag f.tag.name.text)
    (w s : Text) :
    blocks (f.text (body ++ (c.text ++ w)) ++ s) = Item.block 0 f.tag (f.opening ++ body) ::
      (blocks (w ++ (f.rest ++ (f.close.text ++ s)))).map
        (Block.shift (Text.size ('<' :: (f.tag.text ++ (f.opening ++ body ++ c.text))))) := by
  have hform : f.text (body ++ (c.text ++ w)) ++ s
      = '<' :: (f.tag.text ++ (f.opening ++ body ++ c.text))
        ++ (w ++ (f.rest ++ (f.close.text ++ s))) := by
    simp [text, content]
  rw [hform]
  refine f.blocks_closing c _ ?_
  rw [List.append_assoc, f.tail_opening, nestedTail_body f.nests hbody (startsApart_closing c _),
    nestedTail_close_zero]

/-- **An opening tag in a value takes the closing tag of the template**, so that the block goes on
behind it. -/
theorem blocks_opened {body body' : Text} (hbody : TemplateBody body) (hbody' : TemplateBody body')
    {t : Tag} (ht : isTemplateName t.name.text = true) (hself : t.selfClosing = false) {s : Text}
    (hs : TemplateBody s) :
    blocks (f.text (body ++ '<' :: (t.text ++ body')) ++ s)
      = [Item.block 0 f.tag
          (f.content (body ++ '<' :: (t.text ++ body')) ++ (f.close.text ++ s))] := by
  have hend : nestedTail f.tag.name.text 0 s = [] := by
    have hpassed : nestedTail f.tag.name.text 0 (s ++ []) = nestedTail f.tag.name.text 0 [] :=
      nestedTail_body f.nests hs fun c hc => by cases hc
    rw [List.append_nil] at hpassed
    rw [hpassed, nestedTail]
  rw [f.text_eq]
  refine blocks_unclosed f.opens ?_
  simp only [content, List.append_assoc, List.cons_append]
  rw [f.tail_opening, nestedTail_body f.nests hbody (startsApart_lt _),
    nestedTail_open (openTag?_text t _) ((same_template_iff f.nests _).trans ht), Tag.meaning,
    OpenTag.opened]
  simp only [hself, Bool.false_eq_true, if_false]
  rw [nestedTail_body f.nests hbody' (f.startsApart_rest _),
    f.nestedTail_rest f.nests (startsApart_closing f.close s),
    nestedTail_closing f.close f.nests f.nests, hend]

/-- **A comment that a value opens and nothing closes runs to the end.** -/
theorem blocks_commented {body w : Text} (hbody : TemplateBody body) {s : Text}
    (hw : EndsNoComment (w ++ (f.rest ++ (f.close.text ++ s)))) :
    blocks (f.text (body ++ (['<', '!', '-', '-'] ++ w)) ++ s)
      = [Item.block 0 f.tag
          (f.content (body ++ (['<', '!', '-', '-'] ++ w)) ++ (f.close.text ++ s))] := by
  have hlt : StartsApart (['<', '!', '-', '-'] ++ (w ++ (f.rest ++ (f.close.text ++ s)))) :=
    startsApart_lt _
  rw [f.text_eq]
  refine blocks_unclosed f.opens ?_
  simp only [content, List.append_assoc]
  rw [f.tail_opening, nestedTail_body f.nests hbody hlt, nestedTail_commentOpen,
    afterComment_eq_nil hw, nestedTail]

/-- **What the value of an attribute inside a template does to the blocks.** If templates and
comments are balanced in it, the template is one block with all of its content, and the blocks of
the rest follow. A closing tag in the value ends the block there, and the rest of the value is read
as part of the component. A value that opens a template or a comment makes the block swallow the
rest, unless something in the rest closes it. -/
theorem blocks_value (v s : Text) :
    (TemplateBody v →
      blocks (f.text v ++ s) = Item.block 0 f.tag (f.content v) ::
        (blocks s).map (Block.shift (Text.size (f.text v))) ∧
      i18nBlock? (f.text v ++ s) = (i18nBlock? s).map (Block.shift (Text.size (f.text v)))) ∧
    (∀ body (c : ClosingTag f.tag.name.text) w, v = body ++ (c.text ++ w) → TemplateBody body →
      let k := Text.size ('<' :: (f.tag.text ++ (f.opening ++ body ++ c.text)))
      let behind := w ++ (f.rest ++ (f.close.text ++ s))
      blocks (f.text v ++ s) = Item.block 0 f.tag (f.opening ++ body) ::
        (blocks behind).map (Block.shift k) ∧
      i18nBlock? (f.text v ++ s) = (i18nBlock? behind).map (Block.shift k)) ∧
    (∀ body (t : Tag) body', v = body ++ '<' :: (t.text ++ body') →
      isTemplateName t.name.text = true → t.selfClosing = false →
      TemplateBody body → TemplateBody body' → TemplateBody s →
      blocks (f.text v ++ s) = [Item.block 0 f.tag (f.content v ++ (f.close.text ++ s))] ∧
      i18nBlock? (f.text v ++ s) = none) ∧
    (∀ body w, v = body ++ (['<', '!', '-', '-'] ++ w) → TemplateBody body →
      EndsNoComment (w ++ (f.rest ++ (f.close.text ++ s))) →
      blocks (f.text v ++ s) = [Item.block 0 f.tag (f.content v ++ (f.close.text ++ s))] ∧
      i18nBlock? (f.text v ++ s) = none) := by
  refine ⟨fun hv => ?_, ?_, ?_, ?_⟩
  · have hblocks := f.blocks_balanced hv s
    exact ⟨hblocks, i18nBlock?_behind (isI18n_template 0 f.nests _) hblocks⟩
  · rintro body c w rfl hbody
    have hblocks := f.blocks_closed hbody c w s
    exact ⟨hblocks, i18nBlock?_behind (isI18n_template 0 f.nests _) hblocks⟩
  · rintro body t body' rfl ht hself hbody hbody' hs
    have hblocks := f.blocks_opened hbody hbody' ht hself hs
    exact ⟨hblocks, i18nBlock?_alone (isI18n_template 0 f.nests _) hblocks⟩
  · rintro body w rfl hbody hw
    have hblocks := f.blocks_commented hbody hw
    exact ⟨hblocks, i18nBlock?_alone (isI18n_template 0 f.nests _) hblocks⟩

end Holder

/-! ## Values that do harm -/

/-- A template whose only content is an element with a title. -/
def paragraphHolder : Holder where
  tag := templateTag
  opens := rfl
  nests := rfl
  close := ⟨"template".toList, rfl, noGap⟩
  before := []
  before_balanced := .nil
  inner := ⟨'p', [], rfl, by simp⟩
  inner_other := rfl
  attr := "title".toList
  attr_chars := Text.forall_of_all (by decide)
  attr_plain := by decide
  after := []
  after_balanced := .nil

/-- A block with an empty locale file. -/
def localeBlock : Text := "<i18n>\x7b\x7d</i18n>".toList

theorem localeBlock_balanced : TemplateBody localeBlock := by
  let n : TagName := ⟨'i', "18n".toList, rfl, Text.forall_of_all (by decide)⟩
  have hends : ∀ r : Text, EndsName ('>' :: r) := by
    intro r c hc
    obtain rfl : '>' = c := by simpa using hc
    rfl
  have hclose : TemplateBody ('<' :: '/' :: (n.text ++ ['>'])) :=
    .otherClosing rfl (hends _) (.char (by decide) .nil)
  exact .other (n := n) rfl (hends _)
    (.char (by decide) (.char (by decide) (.char (by decide) hclose)))

/-- A commented closing tag in the value is balanced. A plain one ends the block and lets out a
block that stands in the value; an opening tag and an open comment make the block of the rest
disappear. -/
theorem paragraphHolder_value :
    i18nBlock? (paragraphHolder.text "<!--</template>-->".toList ++ localeBlock) =
      (i18nBlock? localeBlock).map (Block.shift 51) ∧
    i18nBlock? (paragraphHolder.text "</template><i18n/>".toList ++ localeBlock) =
      (i18nBlock? ("<i18n/>\"></template>".toList ++ localeBlock)).map (Block.shift 31) ∧
    i18nBlock? (paragraphHolder.text "<template>".toList ++ localeBlock) = none ∧
    i18nBlock? (paragraphHolder.text "<!--".toList ++ localeBlock) = none := by
  have hcomment : TemplateBody "<!--</template>-->".toList :=
    .comment (c := "</template>".toList) (by unfold EndsNoComment; decide) .nil
  refine ⟨?_, ?_, ?_, ?_⟩
  · exact ((paragraphHolder.blocks_value _ localeBlock).1 hcomment).2
  · exact ((paragraphHolder.blocks_value _ localeBlock).2.1 [] paragraphHolder.close
      "<i18n/>".toList rfl .nil).2
  · exact ((paragraphHolder.blocks_value _ localeBlock).2.2.1 [] paragraphHolder.tag [] rfl rfl rfl
      .nil .nil localeBlock_balanced).2
  · exact ((paragraphHolder.blocks_value _ localeBlock).2.2.2 [] [] rfl .nil
      (by unfold EndsNoComment; decide)).2

/-- A value with the end of a template and a block. -/
def markedValue : Text := "</template><i18n>[]</i18n>".toList

/-- **Tags in a value are recognized.** The block `i18n` of a component may come from a value, with
the template cut short, and a value may hide the block of the component. -/
theorem markedValue_recognized :
    '"' ∉ markedValue ∧
    blocks (paragraphHolder.text markedValue ++ localeBlock) ≠
      Item.block 0 paragraphHolder.tag (paragraphHolder.content markedValue) ::
        (blocks localeBlock).map (Block.shift (Text.size (paragraphHolder.text markedValue))) ∧
    i18nBlock? (paragraphHolder.text markedValue ++ localeBlock) =
      some ⟨"i18n".toList, [], "[]".toList, 37, 39⟩ ∧
    i18nBlock? (paragraphHolder.text "<template>".toList ++ localeBlock) = none ∧
    i18nBlock? localeBlock = some ⟨"i18n".toList, [], "\x7b\x7d".toList, 6, 8⟩ := by
  decide +kernel

end LocaleStrings.Component
