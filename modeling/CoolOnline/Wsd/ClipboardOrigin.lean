import CoolOnline.Common.StreamSearch
import CoolOnline.Common.Uri

/-! # The origin of a clipboard

What is copied gets a tag that names where it comes from, inside of the body of its HTML, and when it
is pasted the tag is taken out: `postProcessCopyPayload` and `preProcessSetClipboardPayload` of
`wsd/ClientSession.cpp`, on `copyToMatch` and `seekToMatch` of `common/Util.cpp`.
-/

namespace CoolOnline

open InputStream

namespace ClientSession

def textPlain : Payload := "text/plain".toList

/-- Where a clipboard can be had, by what `createPublicURI` takes from the session and the server. -/
structure ClipboardSource where
  disableCopy : Bool
  /-- `_serverURL.getSubURLForEndpoint` without its path. -/
  serverURL : Payload
  /-- The document's public URI, without a query. -/
  wopiSrc : Payload
  processIdentifier : Payload
  kitViewId : Int
  clipboardKey : Payload
  routeToken : Payload

def createPublicURI (poco : PocoURI) (source : ClipboardSource) (subPath tag : Payload)
    (encode : Bool) : Payload :=
  let encodedFrom := Uri.encode poco source.wopiSrc
  let uri := source.serverURL ++ ("/cool/".toList ++ subPath ++ "?WOPISrc=".toList ++ encodedFrom ++
    "&ServerId=".toList ++ source.processIdentifier ++ "&ViewId=".toList ++
    Text.decimal source.kitViewId ++ "&Tag=".toList ++ tag) ++
    (if source.routeToken = [] then [] else "&RouteToken=".toList ++ source.routeToken)
  if encode then Uri.encode poco uri else uri

def getClipboardURI (poco : PocoURI) (source : ClipboardSource) (encode : Bool) : Payload :=
  if source.disableCopy then []
  else createPublicURI poco source "clipboard".toList source.clipboardKey encode

/-! ## The tag -/

def originStart : Payload := "<div id=\"meta-origin\" data-coolorigin=\"".toList

def endtag : Payload := "\">\n".toList

/-- The tag in HTML, and in HTML that is a JSON string. -/
def originTag (json : Bool) (clipboardURI : Payload) : Payload :=
  if json then
    "<div id=\\\"meta-origin\\\" data-coolorigin=\\\"".toList ++ clipboardURI ++
      "\\\">\\n".toList
  else originStart ++ clipboardURI ++ endtag

/-- Whether the payload is rewritten, and what is written. -/
def postProcessCopyPayload (clipboardURI : Payload) (input : InputStream Char) : Bool × Payload :=
  let data := input.read textPlain.length
  if data.1 = textPlain then (false, [])
  else
    let first := (data.2.clear.seekBeg 0).read 1
    let json := first.1 == ['{']
    let body := Util.processToMatch (first.2.clear.seekBeg 0) "<body".toList
    if body.found then
      let close := Util.processToMatch body.input ['>']
      if close.found then
        let bodyEnd := Util.processToMatch (close.input.seekCur 1) "</body>".toList
        (true, body.written ++ close.written ++ ['>'] ++ originTag json clipboardURI ++
          bodyEnd.written ++ (if bodyEnd.found then "</div>".toList else []) ++
          bodyEnd.input.copyRest)
      else (false, body.written ++ close.written)
    else (false, body.written)

def preProcessSetClipboardPayload (input : InputStream Char) : Bool × Payload :=
  let origin := Util.processToMatch input originStart
  if origin.found then
    let tag := Util.processToMatch origin.input endtag
    if tag.found then
      let close := Util.processToMatch (tag.input.seekCur endtag.length) "</div></body>".toList
      if close.found then
        (true, origin.written ++ close.written ++
          (close.input.seekCur "</div>".toList.length).copyRest)
      else (false, origin.written ++ close.written)
    else (false, origin.written)
  else (false, origin.written)

section Origin

variable {clipboardURI payload before opening inner closing content after : Payload}
  {input : InputStream Char}

/-- What is copied, where the first `<body`, the first `>` behind it and the first `</body>` behind
that are. -/
theorem postProcessCopyPayload_eq (hplain : ¬ textPlain <+: payload)
    (hjson : payload.head? ≠ some '{')
    (hbody : Search.cutAt "<body".toList payload = some (before, opening))
    (hclose : Search.cutAt ['>'] ("<body".toList ++ opening) = some (inner, closing))
    (hend : Search.cutAt "</body>".toList closing = some (content, after)) :
    postProcessCopyPayload clipboardURI (.ofData payload) =
      (true, before ++ inner ++ ['>'] ++ originTag false clipboardURI ++ content ++
        "</div>".toList ++ ("</body>".toList ++ after)) := by
  have hstart : At (InputStream.ofData payload) payload := at_ofData payload
  have hdata : ((InputStream.ofData payload).read textPlain.length).1 ≠ textPlain := by
    rw [hstart.read]
    intro htake
    exact hplain (List.prefix_iff_eq_take.mpr htake.symm)
  have hback : ((InputStream.ofData payload).read textPlain.length).2.clear.seekBeg 0 =
      .ofData payload := by
    rw [seekBeg_clear, read_data]
    rfl
  have hagain : ((InputStream.ofData payload).read 1).2.clear.seekBeg 0 = .ofData payload := by
    rw [seekBeg_clear, read_data]
    rfl
  have hbrace : (((InputStream.ofData payload).read 1).1 == ['{']) = false := by
    rw [hstart.read, beq_eq_false_iff_ne]
    intro htake
    cases payload with
    | nil => cases htake
    | cons c payload => exact hjson (congrArg List.head? htake)
  rcases Util.processToMatch_of_at hstart (by decide) hbody with ⟨body, hfindBody, hatBody⟩
  rcases Util.processToMatch_of_at hatBody (by decide) hclose with ⟨close, hfindClose, hatClose⟩
  rcases Util.processToMatch_of_at hatClose.seekCur (by decide) hend with ⟨tail, hfindEnd, hatEnd⟩
  have hone : close.seekCur (['>'] : Payload).length = close.seekCur 1 := rfl
  rw [hone] at hfindEnd
  simp only [postProcessCopyPayload, hdata, if_false, hback, hbrace, hagain, hfindBody, if_true,
    hfindClose, hfindEnd, hatEnd.copyRest]

/-- What is pasted, where the tag, its end and the end of the body are. -/
theorem preProcessSetClipboardPayload_eq
    (horigin : Search.cutAt originStart payload = some (before, opening))
    (htag : Search.cutAt endtag (originStart ++ opening) = some (inner, closing))
    (hclose : Search.cutAt "</div></body>".toList closing = some (content, after)) :
    preProcessSetClipboardPayload (.ofData payload) =
      (true, before ++ content ++ ("</body>".toList ++ after)) := by
  have hstart : At (InputStream.ofData payload) payload := at_ofData payload
  have hword : "</div></body>".toList = "</div>".toList ++ "</body>".toList := by decide
  rcases Util.processToMatch_of_at hstart (by decide) horigin with ⟨origin, hfindOrigin, hatOrigin⟩
  rcases Util.processToMatch_of_at hatOrigin (by decide) htag with ⟨tag, hfindTag, hatTag⟩
  rcases Util.processToMatch_of_at hatTag.seekCur (by decide) hclose with
    ⟨close, hfindClose, hatClose⟩
  rw [hword, List.append_assoc] at hatClose
  have hrest := hatClose.seekCur.copyRest
  simp only [preProcessSetClipboardPayload, hfindOrigin, hfindTag, hfindClose, if_true, hrest]

/-- The encoded URI cannot end the tag. -/
theorem not_mem_getClipboardURI {poco : PocoURI} (hpoco : poco.EscapesIllegal)
    (source : ClipboardSource) : '>' ∉ getClipboardURI poco source true := by
  rw [getClipboardURI]
  split
  · exact List.not_mem_nil
  · exact hpoco _ '>' (by decide) (by decide)

/-- The end of the tag is not in front of where it is. -/
theorem cutAt_endtag (huri : '>' ∉ clipboardURI) (closing : Payload) :
    Search.cutAt endtag (originStart ++ (clipboardURI ++ (endtag ++ closing))) =
      some (originStart ++ clipboardURI, closing) := by
  have hword : endtag = '"' :: ">\n".toList := by decide
  have hnot : ¬ endtag <:+: originStart ++ clipboardURI := by
    intro hoccurs
    have hmem : '>' ∈ originStart ++ clipboardURI := hoccurs.subset (by decide)
    rcases List.mem_append.mp hmem with hmem | hmem
    · exact absurd hmem (by decide)
    · exact huri hmem
  have hfirst : Search.FirstAt endtag (originStart ++ clipboardURI) := by
    rw [hword] at hnot ⊢
    exact Search.firstAt_of_not_occurs (by decide) hnot
  rw [← List.append_assoc]
  exact Search.cutAt_of_firstAt hfirst closing

/-- The end of the tag's element is where the first end of the body is. -/
theorem cutAt_closing (hend : Search.cutAt "</body>".toList closing = some (content, after)) :
    Search.cutAt "</div></body>".toList (content ++ ("</div></body>".toList ++ after)) =
      some (content, after) := by
  have hword : "</div></body>".toList = "</div>".toList ++ "</body>".toList := by decide
  have hbody : "</body>".toList = '<' :: "/body>".toList := by decide
  have hdiv : "</div>".toList = '<' :: "/div>".toList := by decide
  have hcontent := (Search.cutAt_eq_some hend).2.not_occurs (by decide)
  have hnot : ¬ "</body>".toList <:+: content ++ "</div>".toList := by
    rw [hbody, hdiv] at *
    intro hoccurs
    rcases Search.infix_append_cons (by decide) hoccurs with hbefore | hmore
    · exact hcontent hbefore
    · exact absurd hmore (by decide)
  have hfirst : Search.FirstAt "</div></body>".toList content := by
    rw [hword]
    apply Search.FirstAt.of_append
    rw [hbody] at hnot ⊢
    exact Search.firstAt_of_not_occurs (by decide) hnot
  exact Search.cutAt_of_firstAt hfirst after

end Origin

/-- What is pasted is what was copied, whatever the windows in which the marks are found. -/
theorem preProcess_postProcess {poco : PocoURI} (hpoco : poco.EscapesIllegal)
    (source : ClipboardSource) {a b c d payload : Payload}
    (hpayload : payload = a ++ "<body".toList ++ b ++ ['>'] ++ c ++ "</body>".toList ++ d)
    (hplain : ¬ textPlain <+: payload) (hjson : payload.head? ≠ some '{')
    (horigin : ¬ originStart <:+: payload) :
    ∃ rewritten,
      postProcessCopyPayload (getClipboardURI poco source true) (.ofData payload) =
        (true, rewritten) ∧
      preProcessSetClipboardPayload (.ofData rewritten) = (true, payload) := by
  have hfirst : payload = a ++ ("<body".toList ++ (b ++ ['>'] ++ c ++ "</body>".toList ++ d)) := by
    rw [hpayload]
    simp only [List.append_assoc]
  rcases Search.exists_cutAt hfirst with ⟨before, opening, x, hbody, hopening⟩
  have hsecond : "<body".toList ++ opening =
      (x ++ "<body".toList ++ b) ++ (['>'] ++ (c ++ "</body>".toList ++ d)) := by
    rw [hopening]
    simp only [List.append_assoc]
  rcases Search.exists_cutAt hsecond with ⟨inner, closing, y, hclose, hclosing⟩
  have hthird : ∃ z, closing = z ++ ("</body>".toList ++ d) := by
    cases y with
    | nil => exact ⟨c, by simpa using hclosing⟩
    | cons e y =>
        have htail := (List.cons.inj hclosing).2
        exact ⟨y ++ ['>'] ++ c, by simpa [List.append_assoc] using htail⟩
  rcases hthird with ⟨z, hthird⟩
  rcases Search.exists_cutAt hthird with ⟨content, after, -, hend, -⟩
  have hwhole : payload = (before ++ inner ++ ['>']) ++ (content ++ ("</body>".toList ++ after)) := by
    rw [(Search.cutAt_eq_some hbody).1, (Search.cutAt_eq_some hclose).1,
      (Search.cutAt_eq_some hend).1]
    simp only [List.append_assoc]
  have hnot : ¬ originStart <:+: before ++ inner ++ ['>'] := fun hoccurs =>
    horigin (hwhole ▸ hoccurs.trans (List.prefix_append _ _).isInfix)
  have htag : Search.FirstAt originStart (before ++ inner ++ ['>']) := by
    have hword : originStart = '<' :: "div id=\"meta-origin\" data-coolorigin=\"".toList := by decide
    rw [hword] at hnot ⊢
    exact Search.firstAt_of_not_occurs (by decide) hnot
  have hcut := Search.cutAt_of_firstAt htag (getClipboardURI poco source true ++ (endtag ++
    (content ++ ("</div></body>".toList ++ after))))
  have hpre := preProcessSetClipboardPayload_eq hcut
    (cutAt_endtag (not_mem_getClipboardURI hpoco source) _) (cutAt_closing hend)
  refine ⟨_, postProcessCopyPayload_eq hplain hjson hbody hclose hend, ?_⟩
  have hword : "</div></body>".toList = "</div>".toList ++ "</body>".toList := by decide
  have hwritten : before ++ inner ++ ['>'] ++ originTag false (getClipboardURI poco source true) ++
      content ++ "</div>".toList ++ ("</body>".toList ++ after) =
      (before ++ inner ++ ['>']) ++ (originStart ++ (getClipboardURI poco source true ++ (endtag ++
        (content ++ ("</div></body>".toList ++ after))))) := by
    rw [originTag, hword]
    simp only [List.append_assoc, Bool.false_eq_true, if_false]
  rw [hwritten, hpre, hwhole, List.append_assoc _ content]

/-- A cell that was copied. -/
theorem preProcess_postProcess_cell :
    ∃ rewritten,
      postProcessCopyPayload (getClipboardURI .percentCoding
        ⟨false, "https://h".toList, "http://h/w".toList, "1".toList, 0, "t".toList, []⟩ true)
        (.ofData "<html><body lang=\"de\">1</body></html>".toList) = (true, rewritten) ∧
      preProcessSetClipboardPayload (.ofData rewritten) =
        (true, "<html><body lang=\"de\">1</body></html>".toList) :=
  preProcess_postProcess PocoURI.escapesIllegal_percentCoding _ (a := "<html>".toList)
    (b := " lang=\"de\"".toList) (c := "1".toList) (d := "</html>".toList) (by decide +kernel)
    (by decide +kernel) (by decide +kernel) (by decide +kernel)

end ClientSession

end CoolOnline
