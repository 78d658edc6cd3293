import Mathlib
import OsScanner.Reporting.PdfReading
import OsScanner.Reporting.TableRows

/-!
# The structure of the file of the PDF report

Whatever the sections of a report call, and whatever texts they show: the objects of the file are
numbered from one on and stand where the table of offsets says, the pages are listed in their order,
and a content stream is read as the shapes of its page, with each text as one literal string.
-/

namespace OsScanner.Reporting

open Lib Lib.Check Lib.Pdf Storage

/-! ## Calls of the sections -/

/-- What a section of a report calls. -/
inductive LayoutCall where
  | newPage (title : String) (cover : Bool)
  | draw (shape : Shape)
  /-- `layout.y = …` -/
  | moveTo (y : ℚ)
  | ensure (height : ℚ) (title : String)
  | paragraph (value title : String) (width size leading : ℚ) (color : Color) (bold : Bool)
  | heading (title titleOfPage : String) (level : Nat)
  | keyValues (rows : List (String × Option String)) (title : String)
  | table (rows : Table)

def LayoutCall.run (layout : Layout) : LayoutCall → Except PdfError Layout
  | .newPage title cover => layout.newPage title cover
  | .draw shape => layout.draw shape
  | .moveTo y => .ok { layout with y := y }
  | .ensure height title => layout.ensure height title
  | .paragraph value title width size leading color bold =>
    layout.paragraph value title width size leading color bold
  | .heading title titleOfPage level => layout.heading title titleOfPage level
  | .keyValues rows title => layout.keyValues rows title
  | .table rows => layout.table rows

theorem LayoutCall.exists_draws {call : LayoutCall} {layout layout' : Layout}
    (h : call.run layout = .ok layout') : ∃ ops, Draws ops layout layout' := by
  cases call with
  | newPage title cover => exact ⟨_, (Layout.draws_newPage h).1⟩
  | draw shape => exact ⟨_, (Layout.draws_draw h).1⟩
  | moveTo y =>
    cases h
    exact ⟨[], .nil⟩
  | ensure height title => exact Layout.exists_draws_ensure h
  | paragraph value title width size leading color bold => exact Layout.exists_draws_paragraph h
  | heading title titleOfPage level => exact Layout.exists_draws_heading h
  | keyValues rows title => exact Layout.exists_draws_keyValues h
  | table rows =>
    obtain ⟨blocks, hdrawn⟩ := tableDrawn_of_table h
    exact ⟨_, hdrawn.draws⟩

/-! ## Pages of shapes -/

def Canvas.Shaped (canvas : Canvas) : Prop := ∀ page ∈ canvas.pages, ∃ shapes, ShapesOf page shapes

theorem Canvas.Shaped.draw {canvas canvas' : Canvas} {shape : Shape} (hshaped : canvas.Shaped)
    (h : canvas.draw shape = .ok canvas') : canvas'.Shaped := by
  rw [Canvas.draw] at h
  split at h
  · cases h
  next page hpage =>
    rw [bind_eq_ok] at h
    obtain ⟨command, hcommand, h⟩ := h
    cases h
    have hpages : canvas.pages = canvas.finished ++ [page] := by rw [Canvas.pages, hpage]; rfl
    rw [Canvas.Shaped, hpages, List.forall_mem_append, List.forall_mem_singleton] at hshaped
    obtain ⟨hfinished, shapes, hshapes⟩ := hshaped
    have hgrown : ShapesOf { page with commands := page.commands ++ [command] } (shapes ++ [shape]) :=
      List.rel_append hshapes (.cons hcommand .nil)
    exact List.forall_mem_append.mpr ⟨hfinished, List.forall_mem_singleton.mpr ⟨_, hgrown⟩⟩

theorem Canvas.Shaped.newPage {canvas canvas' : Canvas} {title : String} {cover : Bool}
    (hshaped : canvas.Shaped) (h : canvas.newPage title cover = .ok canvas') : canvas'.Shaped := by
  rw [Canvas.newPage] at h
  split at h
  · cases h
  have hempty : Canvas.Shaped { canvas with finished := canvas.pages
                                            page := some { sectionName := cleanText title 128 } } :=
    List.forall_mem_append.mpr ⟨hshaped, List.forall_mem_singleton.mpr ⟨[], .nil⟩⟩
  split at h
  · cases h
    exact hempty
  -- the bar is two shapes on the empty page
  replace h : (pageBar (cleanText title 128)).foldlM (fun (canvas : Canvas) shape => canvas.draw shape) _
    = _ := h
  rw [pageBar, List.foldlM_cons, bind_eq_ok] at h
  obtain ⟨barred, hbar, h⟩ := h
  rw [List.foldlM_cons, bind_eq_ok] at h
  obtain ⟨titled, htitle, h⟩ := h
  cases h
  exact (hempty.draw hbar).draw htitle

theorem Canvas.Shaped.performs {ops : List DrawOp} : ∀ {canvas canvas' : Canvas}, canvas.Shaped →
    ops.foldlM Canvas.perform canvas = .ok canvas' → canvas'.Shaped := by
  induction ops with
  | nil =>
    intro canvas canvas' hshaped h
    cases h
    exact hshaped
  | cons op ops ih =>
    intro canvas canvas' hshaped h
    rw [List.foldlM_cons, bind_eq_ok] at h
    obtain ⟨middle, hfirst, h⟩ := h
    refine ih ?_ h
    cases op with
    | page title cover => exact hshaped.newPage hfirst
    | shape shape => exact hshaped.draw hfirst

/-- Whatever was called, each page has the commands of some shapes. -/
theorem shaped_of_calls {calls : List LayoutCall} : ∀ {layout layout' : Layout},
    layout.toCanvas.Shaped → calls.foldlM LayoutCall.run layout = .ok layout' →
      layout'.toCanvas.Shaped := by
  induction calls with
  | nil =>
    intro layout layout' hshaped h
    cases h
    exact hshaped
  | cons call calls ih =>
    intro layout layout' hshaped h
    rw [List.foldlM_cons, bind_eq_ok] at h
    obtain ⟨middle, hcall, h⟩ := h
    obtain ⟨ops, hops⟩ := LayoutCall.exists_draws hcall
    exact ih (hshaped.performs hops) h

/-! ## The objects in their order -/

/-- The objects of the pages, a page and its stream each, from this number on. -/
def pageBodies : Nat → List Bytes → List Bytes
  | _, [] => []
  | next, stream :: streams =>
    pageObject (next + 1) :: contentObject stream :: pageBodies (next + 2) streams

/-- All objects of the file, from number one on. -/
def fileBodies (streams : List Bytes) (info : Bytes) : List Bytes :=
  [catalogObject, pagesObject (List.range' 5 streams.length 2), fontObject "Helvetica",
    fontObject "Helvetica-Bold"] ++ pageBodies 5 streams ++ [info]

/-- The entries of the dictionary of objects that the loop over the pages makes. -/
def pageEntries : Nat → List Bytes → List (Nat × Bytes)
  | _, [] => []
  | next, stream :: streams =>
    (next + 1, contentObject stream) :: (next, pageObject (next + 1)) :: pageEntries (next + 2) streams

@[simp] theorem length_pageBodies (streams : List Bytes) :
    ∀ next, (pageBodies next streams).length = 2 * streams.length := by
  induction streams with
  | nil => exact fun _ => rfl
  | cons stream streams ih =>
    intro next
    rw [pageBodies, List.length_cons, List.length_cons, ih, List.length_cons]
    omega

@[simp] theorem length_fileBodies (streams : List Bytes) (info : Bytes) :
    (fileBodies streams info).length = 5 + 2 * streams.length := by
  rw [fileBodies, List.length_append, List.length_append, length_pageBodies]
  show 4 + 2 * streams.length + 1 = _
  omega

/-- The page with this index, and its stream. -/
theorem getElem?_pageBodies {streams : List Bytes} : ∀ {next i : Nat} {stream : Bytes},
    streams[i]? = some stream →
      (pageBodies next streams)[2 * i]? = some (pageObject (next + 2 * i + 1)) ∧
        (pageBodies next streams)[2 * i + 1]? = some (contentObject stream) := by
  induction streams with
  | nil =>
    intro next i stream h
    cases h
  | cons first streams ih =>
    intro next i stream h
    cases i with
    | zero =>
      cases h
      exact ⟨rfl, rfl⟩
    | succ i =>
      have hrest := @ih (next + 2) i stream h
      rw [show next + 2 + 2 * i + 1 = next + 2 * (i + 1) + 1 by omega] at hrest
      exact hrest

/-- Under its number an entry has what stands at this place of the objects. -/
theorem lookup_pageEntries (streams : List Bytes) : ∀ next n,
    Assoc.lookup (next + n) (pageEntries next streams) = (pageBodies next streams)[n]? := by
  induction streams with
  | nil => exact fun _ _ => rfl
  | cons stream streams ih =>
    intro next n
    rw [pageEntries, pageBodies]
    match n with
    | 0 => rw [Assoc.lookup_cons_ne (by omega), Nat.add_zero, Assoc.lookup_cons_self]; rfl
    | 1 => rw [Assoc.lookup_cons_self]; rfl
    | n + 2 =>
      rw [Assoc.lookup_cons_ne (by omega), Assoc.lookup_cons_ne (by omega),
        show next + (n + 2) = next + 2 + n by omega, ih]
      rfl

theorem lookup_pageEntries_of_lt {streams : List Bytes} : ∀ {next n : Nat}, n < next →
    Assoc.lookup n (pageEntries next streams) = none := by
  induction streams with
  | nil => exact fun _ => rfl
  | cons stream streams ih =>
    intro next n h
    rw [pageEntries, Assoc.lookup_cons_ne (by omega), Assoc.lookup_cons_ne (by omega), ih (by omega)]

theorem keys_pageEntries_lt {streams : List Bytes} : ∀ {next key : Nat},
    key ∈ (pageEntries next streams).map Prod.fst → key < next + 2 * streams.length := by
  induction streams with
  | nil =>
    intro next key h
    cases h
  | cons stream streams ih =>
    intro next key h
    rw [pageEntries, List.map_cons, List.map_cons, List.mem_cons, List.mem_cons] at h
    rw [List.length_cons]
    rcases h with hkey | hkey | h
    · change key = next + 1 at hkey
      omega
    · change key = next at hkey
      omega
    · have hrest := ih h
      omega

/-- The dictionary of all objects. -/
def fileEntries (streams : List Bytes) (info : Bytes) : List (Nat × Bytes) :=
  [(1, catalogObject), (3, fontObject "Helvetica"), (4, fontObject "Helvetica-Bold")] ++
    pageEntries 5 streams ++
    [(2, pagesObject (List.range' 5 streams.length 2)), (5 + 2 * streams.length, info)]

theorem lookup_fileEntries {streams : List Bytes} {info body : Bytes} {n : Nat}
    (h : (fileBodies streams info)[n]? = some body) :
    Assoc.lookup (1 + n) (fileEntries streams info) = some body := by
  have hbodies : fileBodies streams info = catalogObject :: pagesObject (List.range' 5 streams.length 2) ::
      fontObject "Helvetica" :: fontObject "Helvetica-Bold" :: (pageBodies 5 streams ++ [info]) := rfl
  have hentries : fileEntries streams info = (1, catalogObject) :: (3, fontObject "Helvetica") ::
      (4, fontObject "Helvetica-Bold") :: (pageEntries 5 streams ++
        [(2, pagesObject (List.range' 5 streams.length 2)), (5 + 2 * streams.length, info)]) := rfl
  rw [hbodies] at h
  rw [hentries]
  rcases n with _ | _ | _ | _ | n
  · rw [List.getElem?_cons_zero] at h
    rw [Nat.add_zero, Assoc.lookup_cons_self, h]
  · rw [List.getElem?_cons_succ, List.getElem?_cons_zero] at h
    rw [Assoc.lookup_cons_ne (by omega), Assoc.lookup_cons_ne (by omega),
      Assoc.lookup_cons_ne (by omega), Assoc.lookup_append, lookup_pageEntries_of_lt (by omega),
      Option.none_or, Assoc.lookup_cons_self, h]
  · rw [List.getElem?_cons_succ, List.getElem?_cons_succ, List.getElem?_cons_zero] at h
    rw [Assoc.lookup_cons_ne (by omega), Assoc.lookup_cons_self, h]
  · rw [List.getElem?_cons_succ, List.getElem?_cons_succ, List.getElem?_cons_succ,
      List.getElem?_cons_zero] at h
    rw [Assoc.lookup_cons_ne (by omega), Assoc.lookup_cons_ne (by omega), Assoc.lookup_cons_self, h]
  · rw [List.getElem?_cons_succ, List.getElem?_cons_succ, List.getElem?_cons_succ,
      List.getElem?_cons_succ, List.getElem?_append, length_pageBodies] at h
    rw [show 1 + (n + 4) = 5 + n by omega, Assoc.lookup_cons_ne (by omega),
      Assoc.lookup_cons_ne (by omega), Assoc.lookup_cons_ne (by omega), Assoc.lookup_append,
      lookup_pageEntries]
    split at h
    · rw [h, Option.some_or]
    next hlast =>
      have hn : n = 2 * streams.length := by
        rw [List.getElem?_singleton] at h
        split at h
        · omega
        · cases h
      subst hn
      rw [List.getElem?_eq_none (by rw [length_pageBodies]), Option.none_or,
        Assoc.lookup_cons_ne (by omega), Assoc.lookup_cons_self]
      rwa [Nat.sub_self] at h

theorem foldl_max_le {keys : List Nat} {bound : Nat} : ∀ {start : Nat}, start ≤ bound →
    (∀ key ∈ keys, key ≤ bound) → keys.foldl max start ≤ bound := by
  induction keys with
  | nil => exact fun hstart _ => hstart
  | cons key keys ih =>
    intro start hstart hkeys
    rw [List.forall_mem_cons] at hkeys
    exact ih (max_le hstart hkeys.1) hkeys.2

/-- The greatest number is that of the last object. -/
theorem last_fileEntries (streams : List Bytes) (info : Bytes) :
    ((fileEntries streams info).map Prod.fst).foldl max 0 = 5 + 2 * streams.length := by
  rw [fileEntries, List.map_append, List.foldl_append]
  show max (max _ 2) (5 + 2 * streams.length) = _
  refine max_eq_right (max_le (foldl_max_le (Nat.zero_le _) fun key hkey => ?_) (by omega))
  rw [List.map_append, List.mem_append] at hkey
  rcases hkey with hfirst | hpage
  · change key ∈ [1, 3, 4] at hfirst
    simp only [List.mem_cons, List.not_mem_nil, or_false] at hfirst
    omega
  · exact (keys_pageEntries_lt hpage).le

/-! ## Writing the objects -/

/-- The texts of the objects, from this number on. -/
def numbered : Nat → List Bytes → List Bytes
  | _, [] => []
  | number, body :: bodies => objectText number body :: numbered (number + 1) bodies

/-- Where the objects of the file are. -/
def objectOffsets (streams : List Bytes) (info : Bytes) : List Nat :=
  offsets fileHeader.length (numbered 1 (fileBodies streams info))

/-- Where the table of offsets is. -/
def tableOffset (streams : List Bytes) (info : Bytes) : Nat :=
  fileHeader.length + (numbered 1 (fileBodies streams info)).flatten.length

/-- The table of offsets and the trailer of the file. -/
def writtenEnd (streams : List Bytes) (info : Bytes) (documentId : String) : Bytes :=
  fileEnd ((fileBodies streams info).length + 1) (fileBodies streams info).length documentId
    (tableOffset streams info) (objectOffsets streams info)

def writtenFile (streams : List Bytes) (info : Bytes) (documentId : String) : Bytes :=
  fileHeader ++ (numbered 1 (fileBodies streams info)).flatten ++ writtenEnd streams info documentId

theorem getElem?_numbered {bodies : List Bytes} : ∀ {start n : Nat} {body : Bytes},
    bodies[n]? = some body → (numbered start bodies)[n]? = some (objectText (start + n) body) := by
  induction bodies with
  | nil =>
    intro start n body h
    cases h
  | cons first bodies ih =>
    intro start n body h
    cases n with
    | zero =>
      cases h
      rfl
    | succ n =>
      have hrest := @ih (start + 1) n body h
      rwa [show start + 1 + n = start + (n + 1) by omega] at hrest

@[simp] theorem length_numbered (bodies : List Bytes) :
    ∀ start, (numbered start bodies).length = bodies.length := by
  induction bodies with
  | nil => exact fun _ => rfl
  | cons body bodies ih => exact fun start => congrArg Nat.succ (ih (start + 1))

/-- Where the dictionary has all numbers, the objects are written one after the other. -/
theorem writeObjects_eq {objects : List (Nat × Bytes)} {bodies : List Bytes} :
    ∀ {start : Nat} {output : Bytes},
      (∀ n body, bodies[n]? = some body → Assoc.lookup (start + n) objects = some body) →
        writeObjects objects (List.range' start bodies.length) output =
          .ok (output ++ (numbered start bodies).flatten,
            offsets output.length (numbered start bodies)) := by
  induction bodies with
  | nil =>
    intro start output _
    rw [numbered, List.flatten_nil, List.append_nil]
    rfl
  | cons body bodies ih =>
    intro start output hlookup
    have hrest : ∀ n found, bodies[n]? = some found →
        Assoc.lookup (start + 1 + n) objects = some found := fun n found hfound => by
      rw [show start + 1 + n = start + (n + 1) by omega]
      exact hlookup (n + 1) found hfound
    have hfirst : Assoc.lookup start objects = some body := hlookup 0 body rfl
    have hwritten := @ih (start + 1) (output ++ objectText start body) hrest
    rw [List.length_cons, List.range'_succ, writeObjects, hfirst]
    dsimp only
    rw [hwritten, numbered, List.flatten_cons, List.append_assoc, offsets, List.length_append]
    rfl

/-- The loop over the pages makes the entries, and lists the pages in their order. -/
theorem pageObjects_eq_ok {header : ReportHeader} {count : Nat} {pages : List Page} :
    ∀ {index next : Nat} {objects : List (Nat × Bytes)} {numbers : List Nat},
      pageObjects header count pages index next = .ok (objects, numbers) → ∃ streams,
        streams.length = pages.length ∧ objects = pageEntries next streams ∧
          numbers = List.range' next streams.length 2 ∧
          ∀ i page stream, pages[i]? = some page → streams[i]? = some stream →
            pageStream header count (index + i) page = .ok stream := by
  induction pages with
  | nil =>
    intro index next objects numbers h
    cases h
    exact ⟨[], rfl, rfl, rfl, fun i page stream hpage => by cases hpage⟩
  | cons first pages ih =>
    intro index next objects numbers h
    rw [pageObjects, bind_eq_ok] at h
    obtain ⟨stream, hstream, h⟩ := h
    obtain ⟨⟨rest, others⟩, hrest, h⟩ := bind_eq_ok.mp h
    cases h
    obtain ⟨streams, hlength, hobjects, hnumbers, hpages⟩ := ih hrest
    refine ⟨stream :: streams, congrArg Nat.succ hlength, ?_, ?_, fun i page found hpage hfound => ?_⟩
    · rw [hobjects]
      rfl
    · rw [hnumbers, List.length_cons, List.range'_succ]
    · cases i with
      | zero =>
        cases hpage
        cases hfound
        exact hstream
      | succ i =>
        have hi := hpages i page found hpage hfound
        rwa [show index + 1 + i = index + (i + 1) by omega] at hi

theorem pdfBytes_eq_ok {sha256 : String → String} {layout : Layout} {header : ReportHeader}
    {branding : PdfBranding} {sourceHash : String} {document : Bytes}
    (h : pdfBytes sha256 layout header branding sourceHash = .ok document) : ∃ streams info,
      streams.length = layout.pages.length ∧ infoObject header branding = .ok info ∧
        (∀ i page stream, layout.pages[i]? = some page → streams[i]? = some stream →
          pageStream header layout.pages.length (1 + i) page = .ok stream) ∧
        document = writtenFile streams info (sha256 (sourceHash ++ ":" ++ header.reportId)) := by
  rw [pdfBytes] at h
  split at h
  · cases h
  obtain ⟨⟨objects, numbers⟩, hobjects, h⟩ := bind_eq_ok.mp h
  obtain ⟨info, hinfo, h⟩ := bind_eq_ok.mp h
  obtain ⟨⟨output, found⟩, hwritten, h⟩ := bind_eq_ok.mp h
  obtain ⟨streams, hlength, rfl, rfl, hstreams⟩ := pageObjects_eq_ok hobjects
  refine ⟨streams, info, hlength, hinfo, hstreams, ?_⟩
  rw [← hlength] at hwritten h
  replace hwritten : writeObjects (fileEntries streams info) (List.range' 1
      (((fileEntries streams info).map Prod.fst).foldl max 0)) fileHeader = .ok (output, found) :=
    hwritten
  rw [last_fileEntries, ← length_fileBodies streams info,
    writeObjects_eq fun n body hbody => lookup_fileEntries hbody] at hwritten
  cases hwritten
  cases h
  rw [length_offsets, length_numbered, length_fileBodies, List.length_append, writtenFile, writtenEnd,
    length_fileBodies, tableOffset, objectOffsets, hlength]

/-! ## The structure -/

/-- A document of these content streams, for these pages. -/
structure WellFormed (header : ReportHeader) (branding : PdfBranding) (pages : List Page)
    (streams : List Bytes) (info : Bytes) (documentId : String) (document : Bytes) : Prop where
  /-- The header, the objects one after the other, the table and the trailer are the whole file. -/
  whole : document = writtenFile streams info documentId
  /-- The numbers are one and so on, up to that of the dictionary of the document. -/
  numbers : (fileBodies streams info).length = 5 + 2 * pages.length
  /-- At the offset of a number in the table stands the object of this number. -/
  placed : ∀ n body, (fileBodies streams info)[n]? = some body → ∃ offset,
    (objectOffsets streams info)[n]? = some offset ∧
      objectText (n + 1) body <+: document.drop offset
  /-- Where the trailer says, the table begins. -/
  table : document.drop (tableOffset streams info) = writtenEnd streams info documentId
  /-- The second object lists the pages, by the numbers that they have below. -/
  kids : (fileBodies streams info)[1]? = some (pagesObject (List.range' 5 pages.length 2))
  /-- A page refers to its stream, which is read as the shapes of the page and its footer. -/
  page : ∀ i page, pages[i]? = some page → ∃ stream shapes tokens,
    (fileBodies streams info)[4 + 2 * i]? = some (pageObject (5 + 2 * i + 1)) ∧
      (fileBodies streams info)[5 + 2 * i]? = some (contentObject stream) ∧
      ShapesOf page shapes ∧ pageTokens header pages.length (1 + i) shapes = some tokens ∧
      lex stream = some tokens
  /-- The last object is the dictionary of the document. -/
  info : (fileBodies streams info)[4 + 2 * pages.length]? = some info ∧
    ∃ tokens, infoTokens header branding = some tokens ∧ lex info = some tokens

theorem getElem?_fileBodies {streams : List Bytes} {info body : Bytes} {n : Nat}
    (h : (pageBodies 5 streams)[n]? = some body) :
    (fileBodies streams info)[4 + n]? = some body := by
  have hlt : n < (pageBodies 5 streams).length := (List.getElem?_eq_some_iff.mp h).1
  rw [fileBodies, List.append_assoc, List.getElem?_append_right (Nat.le_add_right 4 n)]
  show (pageBodies 5 streams ++ [info])[4 + n - 4]? = _
  rw [Nat.add_sub_cancel_left, List.getElem?_append_left hlt, h]

theorem getElem?_fileBodies_last (streams : List Bytes) (info : Bytes) :
    (fileBodies streams info)[4 + 2 * streams.length]? = some info := by
  have hlength : ([catalogObject, pagesObject (List.range' 5 streams.length 2), fontObject "Helvetica",
      fontObject "Helvetica-Bold"] ++ pageBodies 5 streams).length = 4 + 2 * streams.length := by
    rw [List.length_append, length_pageBodies]
    rfl
  rw [fileBodies, ← hlength, List.getElem?_concat_length]

theorem prefix_drop_written {streams : List Bytes} {info body : Bytes} {n : Nat} (documentId : String)
    (h : (fileBodies streams info)[n]? = some body) : ∃ offset,
      (objectOffsets streams info)[n]? = some offset ∧
        objectText (n + 1) body <+: (writtenFile streams info documentId).drop offset := by
  have hlt : n < (objectOffsets streams info).length := by
    rw [objectOffsets, length_offsets, length_numbered]
    exact (List.getElem?_eq_some_iff.mp h).1
  have hoffset := List.getElem?_eq_getElem hlt
  have hobject := @getElem?_numbered _ 1 n body h
  rw [Nat.add_comm] at hobject
  exact ⟨_, hoffset, prefix_drop_offsets rfl hobject hoffset⟩

theorem wellFormed_of_pdfBytes {limits : PdfRenderLimits} {calls : List LayoutCall} {layout : Layout}
    {header : ReportHeader} {branding : PdfBranding} {sha256 : String → String} {sourceHash : String}
    {document : Bytes} (hcalls : calls.foldlM LayoutCall.run { limits := limits } = .ok layout)
    (h : pdfBytes sha256 layout header branding sourceHash = .ok document) : ∃ streams info,
      WellFormed header branding layout.pages streams info
        (sha256 (sourceHash ++ ":" ++ header.reportId)) document := by
  obtain ⟨streams, info, hlength, hinfo, hstreams, rfl⟩ := pdfBytes_eq_ok h
  have hempty : Canvas.Shaped { limits := limits } := fun page hpage => by cases hpage
  have hshaped := @shaped_of_calls calls { limits := limits } _ hempty hcalls
  refine ⟨streams, info,
    { whole := rfl
      numbers := by rw [length_fileBodies, hlength]
      placed := fun n body => prefix_drop_written _
      table := ?_
      kids := by rw [← hlength]; rfl
      page := fun i page hpage => ?_
      info := ⟨?_, lex_infoObject hinfo⟩ }⟩
  · rw [writtenFile, tableOffset, ← List.length_append, List.drop_left']
    rfl
  · obtain ⟨shapes, hshapes⟩ := hshaped page (List.mem_of_getElem? hpage)
    have hlt : i < streams.length := hlength ▸ (List.getElem?_eq_some_iff.mp hpage).1
    have hstream := List.getElem?_eq_getElem hlt
    obtain ⟨tokens, htokens, hlex⟩ := lex_pageStream hshapes (hstreams i page _ hpage hstream)
    obtain ⟨hbody, hcontent⟩ := @getElem?_pageBodies streams 5 i _ hstream
    refine ⟨_, shapes, tokens, getElem?_fileBodies hbody, ?_, hshapes, htokens, hlex⟩
    rw [show 5 + 2 * i = 4 + (2 * i + 1) by omega]
    exact getElem?_fileBodies hcontent
  · rw [← hlength]
    exact getElem?_fileBodies_last streams info

/-! ## When there is a file -/

theorem exists_pageObjects {header : ReportHeader} {count : Nat} (hid : Encodes header.reportId 128) :
    ∀ {pages : List Page} {index next : Nat}, (∀ page ∈ pages, ∃ shapes, ShapesOf page shapes) →
      ∃ found, pageObjects header count pages index next = .ok found := by
  intro pages
  induction pages with
  | nil => exact fun _ => ⟨_, rfl⟩
  | cons page pages ih =>
    intro index next h
    rw [List.forall_mem_cons] at h
    obtain ⟨shapes, hshapes⟩ := h.1
    obtain ⟨stream, hstream⟩ := exists_pageStream hshapes hid count index
    obtain ⟨found, hfound⟩ := @ih (index + 1) (next + 2) h.2
    rw [pageObjects]
    exact ⟨_, bind_eq_ok.mpr ⟨stream, hstream, bind_eq_ok.mpr ⟨found, hfound, rfl⟩⟩⟩

/-- Where the pages and the dictionary of the document are made, the file is. -/
theorem exists_pdfBytes {layout : Layout} {header : ReportHeader} {branding : PdfBranding}
    {found : List (Nat × Bytes) × List Nat} {info : Bytes} (sha256 : String → String)
    (sourceHash : String) (hpages : layout.pages ≠ [])
    (hobjects : pageObjects header layout.pages.length layout.pages 1 5 = .ok found)
    (hinfo : infoObject header branding = .ok info) :
    ∃ document, pdfBytes sha256 layout header branding sourceHash = .ok document := by
  obtain ⟨streams, hlength, hentries, hnumbers, -⟩ := pageObjects_eq_ok hobjects
  have hwritten := @writeObjects_eq (fileEntries streams info) (fileBodies streams info) 1 fileHeader
    fun n body hbody => lookup_fileEntries hbody
  rw [length_fileBodies, ← last_fileEntries streams info] at hwritten
  obtain ⟨objects, numbers⟩ := found
  change objects = pageEntries 5 streams at hentries
  change numbers = List.range' 5 streams.length 2 at hnumbers
  subst hentries hnumbers
  rw [← hlength] at hobjects
  rw [pdfBytes, if_neg hpages, ← hlength]
  exact ⟨_, bind_eq_ok.mpr ⟨_, hobjects, bind_eq_ok.mpr ⟨_, hinfo, bind_eq_ok.mpr ⟨_, hwritten, rfl⟩⟩⟩⟩

/-- A file that is there shows the number of the report on its first page. -/
theorem encodes_of_pdfBytes {layout : Layout} {header : ReportHeader} {branding : PdfBranding}
    {sha256 : String → String} {sourceHash : String} {document : Bytes}
    (h : pdfBytes sha256 layout header branding sourceHash = .ok document) :
    layout.pages ≠ [] ∧ Encodes header.reportId 128 := by
  obtain ⟨streams, info, hlength, -, hstreams, -⟩ := pdfBytes_eq_ok h
  rw [pdfBytes] at h
  split at h
  · cases h
  next hpages =>
    refine ⟨hpages, ?_⟩
    have hpos := List.length_pos_of_ne_nil hpages
    have hstream := hstreams 0 _ _ (List.getElem?_eq_getElem hpos)
      (List.getElem?_eq_getElem (hlength ▸ hpos))
    rw [pageStream, bind_eq_ok] at hstream
    obtain ⟨report, hreport, -⟩ := hstream
    rw [footerText, bind_eq_ok] at hreport
    obtain ⟨literal, hliteral, -⟩ := hreport
    exact encodes_of_pdfLiteral hliteral

def onePageHeader : ReportHeader where
  reportId := "report-1"
  created := "D:20240101000000Z"

def onePageBranding : PdfBranding where
  productName := "Scanner"
  organizationName := "Example (one)"
  reportTitle := "Report"

/-- A text with the characters that end or escape a literal string. -/
def onePageCalls : List LayoutCall :=
  [.newPage "Summary" true, .draw (.text ") Tj ET \\(" 36 700 9 false ink)]

theorem standardPages : 1 ≤ 500 ∧ 500 ≤ 2000 := by decide
theorem standardRows : 1 ≤ 1000 ∧ 1000 ≤ 10000 := by decide
theorem standardCharacters : 64 ≤ 2048 ∧ 2048 ≤ 16384 := by decide

/-- `PdfRenderLimits()` -/
def onePageLimits : PdfRenderLimits where
  pages_range := standardPages
  rows_range := standardRows
  characters_range := standardCharacters

/-- Its only page, with these commands. -/
def onePageLayout (commands : List String) : Layout where
  limits := onePageLimits
  page := some { commands := commands, sectionName := cleanText "Summary" 128 }
  y := pageHeight - top

end OsScanner.Reporting
