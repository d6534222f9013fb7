import Nproxy.Core.ConfigWf

/-!
Server blocks in a configuration file.

A file is the list of the edits of its lines (`editsOf`): a run of lines that begins
no server block, or finds the table of blocks full, does its edits one after the
other (`settings_foldl_step`), and the edits of a server block all go to the last
block begun (`servers_foldl_edit`).

* `ServerBlock` is a `[server]` line with the lines of its block. A file of at most
  sixteen blocks gives one record for each (`servers_readFile_texts`); the first starts
  from `ServerSettings.first`, the others from `ServerSettings.later`, and the four
  settings in which these differ (`Late`) remain different unless the block assigns
  them (`serverRecord_block_iff`).
* From the seventeenth `[server]` line on, the edits go to the sixteenth block: a
  surplus is harmless exactly if it has no edit of a server block that can change one
  (`surplus_harmless_iff`).
-/

namespace Nproxy

variable {re : List UInt8 → Bool}

/-! ### The edits of a text -/

/-- Does a line begin a server block? -/
def Line.isServer : Line → Bool
  | .header name => isServerHeader name
  | _ => false

/-- The edits of lines, read from inside a section. -/
def editsOf : List UInt8 → List Line → List Edit
  | _, [] => []
  | _, .header name :: ls => editsOf (name.take 63) ls
  | sect, .assign key v :: ls => (editOf sect key v).toList ++ editsOf sect ls
  | sect, .skip :: ls => editsOf sect ls

/-- The edits of server blocks among edits. -/
def serverEdits (es : List Edit) : List ServerEdit :=
  es.filterMap fun
    | .server e => some e
    | .globals _ => none

@[simp] lemma length_servers_edit (s : Settings) (e : Edit) :
    (s.edit re e).servers.length = s.servers.length := by
  cases e with
  | server e => rw [Settings.edit, Settings.onServer, List.length_modify]
  | globals e => rfl

/-- Lines that begin no server block, or find the table full, do their edits. -/
lemma settings_foldl_step {ls : List Line} {r : Reading}
    (h : (∀ l ∈ ls, l.isServer = false) ∨ configMaxServers ≤ r.settings.servers.length) :
    (ls.foldl (Reading.step re) r).settings
      = (editsOf r.sect ls).foldl (Settings.edit re) r.settings := by
  induction ls generalizing r with
  | nil => rfl
  | cons l ls ih =>
    rw [List.foldl_cons]
    cases l with
    | skip => exact ih (h.imp_left fun h l hl => h l (by simp [hl]))
    | header name =>
      have hsame : (r.step re (.header name)).settings = r.settings := by
        rw [Reading.step]
        split_ifs with hname
        · cases h with
          | inl h =>
            have hfalse : isServerHeader name = false := h (.header name) (by simp)
            rw [hfalse] at hname
            exact absurd hname Bool.false_ne_true
          | inr h => exact if_neg fun h' => absurd h'.2 (by omega)
        · rfl
      rw [ih (by rw [hsame]; exact h.imp_left fun h l hl => h l (by simp [hl])), hsame]
      rfl
    | assign key v =>
      rw [editsOf, List.foldl_append]
      cases he : editOf r.sect key v with
      | none =>
        have hstep : r.step re (.assign key v) = r := by rw [Reading.step, he]
        rw [hstep, ih (h.imp_left fun h l hl => h l (by simp [hl]))]
        rfl
      | some e =>
        have hstep : r.step re (.assign key v)
            = { r with settings := r.settings.edit re e } := by rw [Reading.step, he]
        rw [hstep, ih (by simpa using h.imp_left fun h l hl => h l (by simp [hl]))]
        rfl

/-- A server header has been seen when one of the lines was one. -/
lemma seenServer_foldl_step (ls : List Line) (r : Reading) :
    (ls.foldl (Reading.step re) r).seenServer = (r.seenServer || ls.any Line.isServer) := by
  induction ls generalizing r with
  | nil => simp
  | cons l ls ih =>
    rw [List.foldl_cons, ih, List.any_cons, ← Bool.or_assoc]
    cases l with
    | skip => simp [Reading.step, Line.isServer]
    | header name => rfl
    | assign key v =>
      rw [Reading.step]
      cases editOf r.sect key v with
      | none => simp [Line.isServer]
      | some e => simp [Line.isServer]

/-- Edits of server blocks change the last block. -/
lemma servers_foldl_edit (es : List Edit) (g : GlobalSettings) (l : List ServerSettings)
    (x : ServerSettings) :
    (es.foldl (Settings.edit re) ⟨g, l ++ [x]⟩).servers
      = l ++ [(serverEdits es).foldl (ServerEdit.apply re) x] := by
  induction es generalizing g x with
  | nil => rfl
  | cons e es ih =>
    rw [List.foldl_cons]
    cases e with
    | server e => rw [Settings.edit, Settings.onServer_concat, ih]; rfl
    | globals e => exact ih _ x

/-! ### Lines of a file -/

/-- Lines, each with its newline. -/
def linesText (ls : List (List UInt8)) : List UInt8 := ls.flatMap (· ++ [lf])

/-- A line that fits the line buffer. -/
def FitsLine (l : List UInt8) : Prop := lf ∉ l ∧ l.length < 511

instance (l : List UInt8) : Decidable (FitsLine l) := inferInstanceAs (Decidable (_ ∧ _))

/-- Lines that fit are read as they are. -/
lemma configLines_linesText {ls : List (List UInt8)} (h : ∀ l ∈ ls, FitsLine l)
    (m : List UInt8) :
    configLines (linesText ls ++ m) = ls.map (· ++ [lf]) ++ configLines m := by
  induction ls with
  | nil => rfl
  | cons l ls ih =>
    have hl := h l (by simp)
    rw [linesText, List.flatMap_cons, List.append_assoc, List.append_assoc,
      List.singleton_append, configLines, Pieces.pieces_line hl.1 hl.2]
    exact congrArg _ (ih fun l' hl' => h l' (by simp [hl']))

lemma map_parseLine_newline (ls : List (List UInt8)) :
    (ls.map (· ++ [lf])).map parseLine = ls.map parseLine := by
  rw [List.map_map]
  exact List.map_congr_left fun l _ => parseLine_newline l

/-! ### Blocks -/

/-- A `[server]` line and the lines of its block: no other line begins a server
block, and every line fits the line buffer. -/
structure ServerBlock where
  header : List UInt8
  body : List (List UInt8)
  header_eq : parseLine header = .header (bytes "server")
  body_lines : ∀ l ∈ body, (parseLine l).isServer = false
  fits : ∀ l ∈ header :: body, FitsLine l

namespace ServerBlock

/-- The text of a block. -/
def text (b : ServerBlock) : List UInt8 := linesText (b.header :: b.body)

/-- The edits of the block's record. -/
def edits (b : ServerBlock) : List ServerEdit :=
  serverEdits (editsOf (bytes "server") (b.body.map parseLine))

/-- The record that a block makes. -/
def record (re : List UInt8 → Bool) (b : ServerBlock) (s : ServerSettings) : ServerSettings :=
  b.edits.foldl (ServerEdit.apply re) s

/-- The lines of a block. -/
def lines (b : ServerBlock) : List Line := (b.header :: b.body).map parseLine

variable {b : ServerBlock}

lemma configLines_text (b : ServerBlock) (m : List UInt8) :
    (configLines (b.text ++ m)).map parseLine = b.lines ++ (configLines m).map parseLine := by
  rw [text, configLines_linesText b.fits, List.map_append, map_parseLine_newline, lines]

/-- The body of a block changes the block it is in. -/
lemma foldl_body (b : ServerBlock) (g : GlobalSettings) (l : List ServerSettings)
    (x : ServerSettings) (seen : Bool) :
    ((b.body.map parseLine).foldl (Reading.step re)
        ⟨⟨g, l ++ [x]⟩, bytes "server", seen⟩).settings.servers = l ++ [b.record re x] := by
  rw [settings_foldl_step (Or.inl fun l hl => ?_), servers_foldl_edit]
  · rfl
  · obtain ⟨l', hl', rfl⟩ := List.mem_map.mp hl
    exact b.body_lines l' hl'

lemma step_header (b : ServerBlock) (r : Reading) :
    r.step re (parseLine b.header)
      = ⟨r.settings.beginServer r.seenServer, bytes "server", true⟩ := by
  have hname : isServerHeader (bytes "server") = true := by decide
  rw [b.header_eq, Reading.step]
  simp only [hname, if_true, Bool.or_true]
  rw [List.take_of_length_le (by decide)]

lemma seenServer_foldl_lines (b : ServerBlock) (r : Reading) :
    (b.lines.foldl (Reading.step re) r).seenServer = true := by
  rw [lines, List.map_cons, List.foldl_cons, step_header, seenServer_foldl_step]
  rfl

/-- A block behind another one adds a record. -/
lemma servers_foldl_lines (re : List UInt8 → Bool) (b : ServerBlock) {r : Reading}
    (hseen : r.seenServer = true) (hroom : r.settings.servers.length < configMaxServers) :
    (b.lines.foldl (Reading.step re) r).settings.servers
      = r.settings.servers ++ [b.record re .later] := by
  rw [lines, List.map_cons, List.foldl_cons, step_header, Settings.beginServer,
    if_pos ⟨hseen, hroom⟩]
  exact b.foldl_body _ _ _ _

/-- The first block of a file is the one that is there already. -/
lemma servers_foldl_lines_start (re : List UInt8 → Bool) (b : ServerBlock) :
    (b.lines.foldl (Reading.step re) .start).settings.servers = [b.record re .first] := by
  rw [lines, List.map_cons, List.foldl_cons, step_header, Settings.beginServer,
    if_neg fun h => Bool.false_ne_true h.1]
  exact b.foldl_body _ [] _ _

/-- The text of blocks. -/
def texts (bs : List ServerBlock) : List UInt8 := bs.flatMap text

lemma configLines_texts (bs : List ServerBlock) :
    (configLines (texts bs)).map parseLine = bs.flatMap lines := by
  induction bs with
  | nil => rfl
  | cons b bs ih => rw [texts, List.flatMap_cons, configLines_text, List.flatMap_cons, ← ih]; rfl

/-- Blocks behind another one add their records, as long as there is room. -/
lemma servers_foldl_blocks (bs : List ServerBlock) {r : Reading} (hseen : r.seenServer = true)
    (hroom : r.settings.servers.length + bs.length ≤ configMaxServers) :
    ((bs.flatMap lines).foldl (Reading.step re) r).settings.servers
      = r.settings.servers ++ bs.map (record re · .later) := by
  induction bs generalizing r with
  | nil => simp
  | cons b bs ih =>
    rw [List.length_cons] at hroom
    have hservers := b.servers_foldl_lines re hseen (by omega)
    rw [List.flatMap_cons, List.foldl_append,
      ih (b.seenServer_foldl_lines r) (by rw [hservers]; simp; omega), hservers]
    simp

/-- **The records of a file of blocks.** -/
lemma servers_readFile_texts (re : List UInt8 → Bool) (b : ServerBlock) (bs : List ServerBlock)
    (hroom : bs.length < configMaxServers) :
    (readFile re (texts (b :: bs))).settings.servers
      = b.record re .first :: bs.map (record re · .later) := by
  have hfirst := b.servers_foldl_lines_start re
  rw [readFile, fileLines, configLines_texts, List.flatMap_cons, List.foldl_append,
    servers_foldl_blocks bs (b.seenServer_foldl_lines _) (by rw [hfirst]; simp; omega), hfirst]
  rfl

end ServerBlock

/-! ### The settings that depend on the place of a block -/

/-- Overwriting a value: two starting values give the same in the end if they are the
same, or if the value is overwritten at all. -/
lemma foldl_getD_eq_iff {ε V : Type*} (f : ε → Option V) (es : List ε) (x y : V) :
    es.foldl (fun v e => (f e).getD v) x = es.foldl (fun v e => (f e).getD v) y
      ↔ x = y ∨ ∃ e ∈ es, (f e).isSome = true := by
  induction es generalizing x y with
  | nil => simp
  | cons e es ih =>
    rw [List.foldl_cons, List.foldl_cons, ih]
    cases hf : f e with
    | none => simp [hf]
    | some v => simp [hf]

/-- The settings that `config_load` sets for the first block only. -/
@[ext]
structure Late where
  tlsListenPort : UInt16
  connectTimeout : ℤ
  upstreamTimeout : ℤ
  keepaliveConns : ℤ

/-- A server block with other values for these. -/
def ServerSettings.withLate (s : ServerSettings) (l : Late) : ServerSettings :=
  { s with
    tlsListenPort := l.tlsListenPort
    connectTimeout := l.connectTimeout
    upstreamTimeout := l.upstreamTimeout
    keepaliveConns := l.keepaliveConns }

lemma ServerSettings.withLate_inj {s : ServerSettings} {l m : Late} :
    s.withLate l = s.withLate m ↔ l = m := by
  refine ⟨fun h => Late.ext ?_ ?_ ?_ ?_, fun h => h ▸ rfl⟩
  · exact congrArg ServerSettings.tlsListenPort h
  · exact congrArg ServerSettings.connectTimeout h
  · exact congrArg ServerSettings.upstreamTimeout h
  · exact congrArg ServerSettings.keepaliveConns h

namespace ServerEdit

/-- The port that `listen_port` of `[tls]` gives. -/
def tlsListenPort? : ServerEdit → Option UInt16
  | tlsListenPort p => some p
  | _ => none

/-- The time that `connect_timeout` of `[proxy]` gives. -/
def connectTimeout? : ServerEdit → Option ℤ
  | connectTimeout t => some t
  | _ => none

/-- The time that `upstream_timeout` of `[proxy]` gives. -/
def upstreamTimeout? : ServerEdit → Option ℤ
  | upstreamTimeout t => some t
  | _ => none

/-- The number that `keepalive_conns` of `[proxy]` gives. -/
def keepaliveConns? : ServerEdit → Option ℤ
  | keepaliveConns n => some n
  | _ => none

/-- What an edit does to the settings that depend on the place. -/
def onLate (l : Late) (e : ServerEdit) : Late where
  tlsListenPort := e.tlsListenPort?.getD l.tlsListenPort
  connectTimeout := e.connectTimeout?.getD l.connectTimeout
  upstreamTimeout := e.upstreamTimeout?.getD l.upstreamTimeout
  keepaliveConns := e.keepaliveConns?.getD l.keepaliveConns

/-- No edit looks at these settings, and none mixes them with the others. -/
lemma apply_withLate (s : ServerSettings) (l : Late) (e : ServerEdit) :
    apply re (s.withLate l) e = (apply re s e).withLate (onLate l e) := by
  -- the tables with a limit are asked for their length, which is the same on both sides
  have hite : ∀ (P : Prop) [Decidable P] (x y : ServerSettings),
      (if P then x.withLate l else y.withLate l) = (if P then x else y).withLate l := by
    intro P _ x y
    split_ifs
    · rfl
    · rfl
  cases e with
  | loadModule t =>
    exact hite (s.modules.length < configMaxModules) { s with modules := s.modules ++ [t] } s
  | rewrite p r =>
    exact hite (s.rewrite.length < configMaxRewrites ∧ re p = true)
      { s with rewrite := s.rewrite ++ [(p, r)] } s
  | backend b =>
    exact hite (s.backends.length < configMaxBackends) { s with backends := s.backends ++ [b] } s
  | _ => rfl

lemma foldl_apply_withLate (es : List ServerEdit) (s : ServerSettings) (l : Late) :
    es.foldl (apply re) (s.withLate l)
      = (es.foldl (apply re) s).withLate (es.foldl onLate l) := by
  induction es generalizing s l with
  | nil => rfl
  | cons e es ih => rw [List.foldl_cons, apply_withLate, ih]; rfl

/-- The settings that depend on the place are the same in the end exactly if each of
them that differs is assigned. -/
lemma foldl_onLate_eq_iff (es : List ServerEdit) (l m : Late) :
    es.foldl onLate l = es.foldl onLate m ↔
      (l.tlsListenPort = m.tlsListenPort ∨ ∃ e ∈ es, e.tlsListenPort?.isSome = true) ∧
      (l.connectTimeout = m.connectTimeout ∨ ∃ e ∈ es, e.connectTimeout?.isSome = true) ∧
      (l.upstreamTimeout = m.upstreamTimeout ∨ ∃ e ∈ es, e.upstreamTimeout?.isSome = true) ∧
      (l.keepaliveConns = m.keepaliveConns ∨ ∃ e ∈ es, e.keepaliveConns?.isSome = true) := by
  have hport : ∀ l, (es.foldl onLate l).tlsListenPort
      = es.foldl (fun v e => e.tlsListenPort?.getD v) l.tlsListenPort := fun l =>
    (List.foldl_hom Late.tlsListenPort fun _ _ => rfl).symm
  have hconnect : ∀ l, (es.foldl onLate l).connectTimeout
      = es.foldl (fun v e => e.connectTimeout?.getD v) l.connectTimeout := fun l =>
    (List.foldl_hom Late.connectTimeout fun _ _ => rfl).symm
  have hupstream : ∀ l, (es.foldl onLate l).upstreamTimeout
      = es.foldl (fun v e => e.upstreamTimeout?.getD v) l.upstreamTimeout := fun l =>
    (List.foldl_hom Late.upstreamTimeout fun _ _ => rfl).symm
  have hkeep : ∀ l, (es.foldl onLate l).keepaliveConns
      = es.foldl (fun v e => e.keepaliveConns?.getD v) l.keepaliveConns := fun l =>
    (List.foldl_hom Late.keepaliveConns fun _ _ => rfl).symm
  rw [Late.ext_iff, hport, hport, hconnect, hconnect, hupstream, hupstream, hkeep, hkeep,
    foldl_getD_eq_iff, foldl_getD_eq_iff, foldl_getD_eq_iff, foldl_getD_eq_iff]

end ServerEdit

/-- The block assigns the four settings. -/
def ServerBlock.AssignsAll (b : ServerBlock) : Prop :=
  (∃ e ∈ b.edits, e.tlsListenPort?.isSome = true) ∧
  (∃ e ∈ b.edits, e.connectTimeout?.isSome = true) ∧
  (∃ e ∈ b.edits, e.upstreamTimeout?.isSome = true) ∧
  ∃ e ∈ b.edits, e.keepaliveConns?.isSome = true

/-- A block makes the same record at the start of a file and behind another block
exactly if it assigns the four settings. -/
lemma ServerBlock.record_first_eq_iff (b : ServerBlock) :
    b.record re .later = b.record re .first ↔ b.AssignsAll := by
  have hlater : ServerSettings.later = ServerSettings.later.withLate ⟨0, 0, 0, 0⟩ := rfl
  have hfirst : ServerSettings.first = ServerSettings.later.withLate ⟨8443, 5, 30, 16⟩ := rfl
  rw [record, record, hfirst]
  nth_rewrite 1 [hlater]
  rw [ServerEdit.foldl_apply_withLate, ServerEdit.foldl_apply_withLate,
    ServerSettings.withLate_inj, ServerEdit.foldl_onLate_eq_iff, AssignsAll]
  simp

/-! ### The records of the loader -/

/-- `servers[k]`, as `config_load` returns it. -/
def serverRecord (re : List UInt8 → Bool) (file : List UInt8) (k : ℕ) : Option ServerSettings := do
  let cfg ← configLoad (fun _ => re) file
  let srv ← cfg.servers.get? k
  return srv.view

/-- The record of a block that the file has begun. -/
lemma serverRecord_eq {file : List UInt8} {k : ℕ}
    (hk : k < (readFile re file).settings.servers.length) :
    serverRecord re file k = (readFile re file).settings.servers[k]? := by
  obtain ⟨cfg, hcfg, hview⟩ := Option.map_eq_some_iff.mp (configLoad_view re file)
  have hget : (readFile re file).settings.servers[k]?
      = (cfg.servers.elems.take cfg.serverCount)[k]?.map NpServerConfig.view := by
    rw [show (readFile re file).settings = cfg.view from hview.symm, NpConfig.view,
      List.getElem?_map]
  rw [List.getElem?_take] at hget
  split at hget
  · rw [serverRecord, hcfg, hget]
    simp only [Option.bind_eq_bind, Option.bind_some, FixedArray.get?]
    cases cfg.servers.elems[k]? with
    | none => rfl
    | some srv => rfl
  · rw [List.getElem?_eq_getElem hk] at hget
    simp at hget

lemma serverRecord_text (re : List UInt8 → Bool) (b : ServerBlock) :
    serverRecord re b.text 0 = some (b.record re .first) := by
  have hload := ServerBlock.servers_readFile_texts re b [] (by decide)
  have htext : ServerBlock.texts [b] = b.text := by simp [ServerBlock.texts]
  rw [htext] at hload
  rw [serverRecord_eq (by rw [hload]; simp)]
  simp [hload]

/-- The record of a block behind another one. -/
lemma serverRecord_texts_succ (re : List UInt8 → Bool) (b : ServerBlock) {bs : List ServerBlock}
    (hroom : bs.length < configMaxServers) {k : ℕ} (hk : k < bs.length) :
    serverRecord re (ServerBlock.texts (b :: bs)) (k + 1) = some (bs[k].record re .later) := by
  have hload := ServerBlock.servers_readFile_texts re b bs hroom
  rw [serverRecord_eq (by rw [hload]; simpa using hk), hload, List.getElem?_cons_succ,
    List.getElem?_map, List.getElem?_eq_getElem hk, Option.map_some]

/-- **What a server block means at another place.** In a file of at most sixteen
blocks, each record is that of its block alone exactly if the block is the first one
or assigns the four settings whose defaults are set for the first block only. -/
theorem serverRecord_block_iff (re : List UInt8 → Bool) (bs : List ServerBlock)
    (hroom : bs.length ≤ configMaxServers) (k : ℕ) (hk : k < bs.length) :
    ∃ s, serverRecord re (ServerBlock.texts bs) k = some s ∧
      (serverRecord re bs[k].text 0 = some s ↔ k = 0 ∨ bs[k].AssignsAll) := by
  rw [serverRecord_text]
  cases bs with
  | nil => simp at hk
  | cons b bs =>
    cases k with
    | zero =>
      have hload := ServerBlock.servers_readFile_texts re b bs (by simpa using hroom)
      refine ⟨b.record re .first, ?_, by simp⟩
      rw [serverRecord_eq (by rw [hload]; simp)]
      simp [hload]
    | succ k =>
      have hk' : k < bs.length := by simpa using hk
      refine ⟨_, serverRecord_texts_succ re b (by simpa using hroom) hk', ?_⟩
      rw [List.getElem_cons_succ, Option.some.injEq, eq_comm, ServerBlock.record_first_eq_iff]
      simp

/-- A block with nothing in it. -/
def bareBlock : ServerBlock where
  header := bytes "[server]"
  body := []
  header_eq := by decide +kernel
  body_lines := by simp
  fits := by decide +kernel

/-- A block that assigns the four settings. -/
def fullBlock : ServerBlock where
  header := bytes "[server]"
  body := [bytes "[tls]", bytes "listen_port = 9443", bytes "[proxy]",
    bytes "connect_timeout = 1", bytes "upstream_timeout = 2", bytes "keepalive_conns = 3"]
  header_eq := by decide +kernel
  body_lines := by decide +kernel
  fits := by decide +kernel

/-- A block that assigns all four settings is read behind another block as it is read alone. -/
theorem serverRecord_block_fullBlock :
    [bareBlock, fullBlock].length ≤ configMaxServers ∧ 1 < [bareBlock, fullBlock].length ∧
      ∃ s, serverRecord (fun _ => true) (ServerBlock.texts [bareBlock, fullBlock]) 1 = some s ∧
        serverRecord (fun _ => true) fullBlock.text 0 = some s := by
  obtain ⟨s, hs, hiff⟩ := serverRecord_block_iff (fun _ => true) [bareBlock, fullBlock]
    (by decide) 1 (by decide)
  refine ⟨by decide, by decide, s, hs, hiff.mpr (Or.inr ?_)⟩
  rw [show [bareBlock, fullBlock][1] = fullBlock from rfl, ServerBlock.AssignsAll]
  decide +kernel

/-- The second of two blocks with nothing in them has a time of zero seconds to
connect to a backend, and alone it has five. -/
theorem exists_serverRecord_ne_alone :
    ¬∀ (re : List UInt8 → Bool) (bs : List ServerBlock), bs.length ≤ configMaxServers →
      ∀ (k : ℕ) (hk : k < bs.length),
        serverRecord re (ServerBlock.texts bs) k = serverRecord re bs[k].text 0 := by
  intro h
  have hsame := h (fun _ => true) [bareBlock, bareBlock] (by decide) 1 (by decide)
  rw [serverRecord_texts_succ _ _ (by decide) (by decide), serverRecord_text,
    Option.some.injEq] at hsame
  have htime := congrArg ServerSettings.connectTimeout hsame
  revert htime
  decide +kernel

/-! ### More than sixteen blocks -/

/-- The number of lines that begin a server block. -/
def serverLines (file : List UInt8) : ℕ := (fileLines file).countP Line.isServer

lemma seenServer_step (r : Reading) (l : Line) :
    (r.step re l).seenServer = (r.seenServer || l.isServer) := by
  cases l with
  | skip => exact (Bool.or_false _).symm
  | assign key v =>
    rw [Reading.step]
    cases editOf r.sect key v <;> exact (Bool.or_false _).symm
  | header name =>
    rw [Reading.step]
    cases hname : isServerHeader name <;> simp [Line.isServer, hname]

/-- A header behind another one adds a block, as long as there is room. -/
lemma length_servers_step (r : Reading) (hr : r.settings.servers.length ≤ configMaxServers)
    (l : Line) : (r.step re l).settings.servers.length =
      min configMaxServers (r.settings.servers.length + (r.seenServer && l.isServer).toNat) := by
  have hsame : r.settings.servers.length = min configMaxServers (r.settings.servers.length +
      (r.seenServer && false).toNat) := by
    rw [Bool.and_false, Bool.toNat_false, Nat.add_zero, min_eq_right hr]
  cases l with
  | skip => exact hsame
  | assign key v =>
    rw [Reading.step]
    cases editOf r.sect key v with
    | none => exact hsame
    | some e => exact (length_servers_edit _ _).trans hsame
  | header name =>
    rw [Reading.step, Line.isServer]
    cases hname : isServerHeader name with
    | false => exact hsame
    | true =>
      simp only [if_true, Settings.beginServer]
      cases hseen : r.seenServer with
      | false => simpa using hr
      | true =>
        by_cases hroom : r.settings.servers.length < configMaxServers
        · rw [if_pos ⟨rfl, hroom⟩, List.length_append, min_eq_right hroom]
          rfl
        · rw [if_neg fun h => hroom h.2]
          simp only [Bool.and_self, Bool.toNat_true]
          omega

/-- The number of server blocks after some lines: the first header names the block
that is there, and there are at most sixteen. -/
lemma length_servers_foldl_step (ls : List Line) (r : Reading)
    (hr : r.settings.servers.length ≤ configMaxServers) :
    (ls.foldl (Reading.step re) r).settings.servers.length
      = min configMaxServers (r.settings.servers.length +
        (ls.countP Line.isServer + r.seenServer.toNat - 1)) := by
  induction ls generalizing r with
  | nil =>
    have := r.seenServer.toNat_le
    simp
    omega
  | cons l ls ih =>
    have hlen : (r.step re l).settings.servers.length = _ := length_servers_step r hr l
    have hle : (r.step re l).settings.servers.length ≤ configMaxServers := by omega
    rw [List.foldl_cons, List.countP_cons, ih _ hle, hlen, seenServer_step]
    cases l.isServer <;> cases r.seenServer <;> simp <;> omega

lemma length_servers_readFile (re : List UInt8 → Bool) (file : List UInt8) :
    (readFile re file).settings.servers.length
      = min configMaxServers (1 + (serverLines file - 1)) :=
  length_servers_foldl_step _ _ (by decide)

/-- A text behind whole lines is read after them. -/
lemma readFile_append {first : List UInt8} (h : Pieces.WholeLines lf first) (rest : List UInt8) :
    readFile re (first ++ rest) = (fileLines rest).foldl (Reading.step re) (readFile re first) := by
  rw [readFile, fileLines, configLines, Pieces.pieces_append_of_lines h, List.map_append,
    List.foldl_append]
  rfl

/-- A text whose first line begins a server block. -/
def BeginsServer (file : List UInt8) : Prop := (fileLines file).head?.any Line.isServer = true

instance (file : List UInt8) : Decidable (BeginsServer file) :=
  inferInstanceAs (Decidable (_ = true))

/-- The edits of a text that begins with a header do not depend on the section before
it. -/
lemma BeginsServer.editsOf_eq {file : List UInt8} (h : BeginsServer file) (sect : List UInt8) :
    editsOf sect (fileLines file) = editsOf [] (fileLines file) := by
  rw [BeginsServer] at h
  cases hl : fileLines file with
  | nil => rfl
  | cons l ls =>
    rw [hl] at h
    cases l with
    | header name => rfl
    | skip => exact absurd h Bool.false_ne_true
    | assign key v => exact absurd h Bool.false_ne_true

/-- The edits of server blocks in a text. -/
def surplusEdits (file : List UInt8) : List ServerEdit := serverEdits (editsOf [] (fileLines file))

/-- When the table of blocks is full, the edits of a text all go to the last block. -/
lemma servers_readFile_append {first rest : List UInt8} (h : Pieces.WholeLines lf first)
    (hfull : configMaxServers ≤ (readFile re first).settings.servers.length)
    (hrest : BeginsServer rest) {l : List ServerSettings} {x : ServerSettings}
    (hx : (readFile re first).settings.servers = l ++ [x]) :
    (readFile re (first ++ rest)).settings.servers
      = l ++ [(surplusEdits rest).foldl (ServerEdit.apply re) x] := by
  have hmk : (readFile re first).settings = ⟨(readFile re first).settings.globals, l ++ [x]⟩ := by
    rw [← hx]
  rw [readFile_append h, settings_foldl_step (Or.inr hfull), hrest.editsOf_eq, hmk,
    servers_foldl_edit]
  rfl

/-- An edit that changes no server block: a rule whose pattern does not compile, or an
empty list of files. -/
def ServerEdit.Idle (re : List UInt8 → Bool) : ServerEdit → Prop
  | rewrite pattern _ => re pattern = false
  | tryFiles paths => paths = []
  | _ => False

instance (e : ServerEdit) : Decidable (e.Idle re) := by
  cases e
  all_goals
    first
    | exact inferInstanceAs (Decidable (_ = _))
    | exact inferInstanceAs (Decidable False)

lemma ServerEdit.Idle.apply_eq {e : ServerEdit} (h : e.Idle re) (s : ServerSettings) :
    apply re s e = s := by
  cases e with
  | rewrite p r => exact if_neg fun h' => by rw [Idle] at h; simp [h] at h'
  | tryFiles ps =>
    rw [Idle] at h
    rw [h, apply]
    simp
  | _ => exact h.elim

lemma foldl_apply_idle {es : List ServerEdit} (h : ∀ e ∈ es, e.Idle re) (s : ServerSettings) :
    es.foldl (ServerEdit.apply re) s = s := by
  induction es with
  | nil => rfl
  | cons e es ih =>
    rw [List.foldl_cons, (h e (by simp)).apply_eq]
    exact ih fun e' he' => h e' (by simp [he'])

/-- A list with an element that fails a test has a last one. -/
lemma exists_last_not {ε : Type*} {P : ε → Prop} {es : List ε} (h : ¬∀ e ∈ es, P e) :
    ∃ es₁ e es₂, es = es₁ ++ e :: es₂ ∧ ¬P e ∧ ∀ e' ∈ es₂, P e' := by
  induction es using List.reverseRecOn with
  | nil => simp at h
  | append_singleton es e ih =>
    by_cases he : P e
    · obtain ⟨es₁, d, es₂, rfl, hd, hes₂⟩ := ih fun hall => h fun e' he' => by
        cases List.mem_append.mp he' with
        | inl h' => exact hall e' h'
        | inr h' => exact List.mem_singleton.mp h' ▸ he
      refine ⟨es₁, d, es₂ ++ [e], by simp, hd, fun e' he' => ?_⟩
      cases List.mem_append.mp he' with
      | inl h' => exact hes₂ e' h'
      | inr h' => exact List.mem_singleton.mp h' ▸ he
    · exact ⟨es, e, [], rfl, he, by simp⟩

/-- A block that assigns every setting that has one value. -/
def oddBlock : ServerBlock where
  header := bytes "[server]"
  body := [bytes "listen_port = 1", bytes "server_name = x", bytes "static_root = x",
    bytes "[tls]", bytes "enabled = 1", bytes "listen_port = 1", bytes "cert_file = x",
    bytes "key_file = x", bytes "[proxy]", bytes "enabled = 1", bytes "mode = least_conn",
    bytes "connect_timeout = 1", bytes "upstream_timeout = 1", bytes "keepalive_conns = 1",
    bytes "[cache]", bytes "enabled = 1", bytes "root = x", bytes "default_ttl = 1",
    bytes "max_entries = 1", bytes "[gzip]", bytes "enabled = 1", bytes "min_length = 1"]
  header_eq := by decide +kernel
  body_lines := by decide +kernel
  fits := by decide +kernel

/-- What it makes of a new block. -/
def oddSettings : ServerSettings :=
  { ServerSettings.later with
    listenPort := 1, serverName := bytes "x", staticRoot := bytes "x", tlsEnabled := true
    tlsListenPort := 1, certFile := bytes "x", keyFile := bytes "x", proxyEnabled := true
    mode := .leastConn, connectTimeout := 1, upstreamTimeout := 1, keepaliveConns := 1
    cacheEnabled := true, cacheRoot := bytes "x", defaultTtl := 1, maxEntries := 1
    gzipEnabled := true, minLength := 1 }

lemma record_bareBlock (s : ServerSettings) : bareBlock.record re s = s := rfl

lemma record_oddBlock : oddBlock.record re .later = oddSettings := by
  have hedits : oddBlock.edits = [.listenPort 1, .serverName (bytes "x"), .staticRoot (bytes "x"),
      .tlsEnabled true, .tlsListenPort 1, .certFile (bytes "x"), .keyFile (bytes "x"),
      .proxyEnabled true, .mode .leastConn, .connectTimeout 1, .upstreamTimeout 1,
      .keepaliveConns 1, .cacheEnabled true, .cacheRoot (bytes "x"), .defaultTtl 1,
      .maxEntries 1, .gzipEnabled true, .minLength 1] := by decide +kernel
  rw [ServerBlock.record, hedits]
  rfl

/-- An edit that is not idle leaves some setting of an empty block or of the other one
changed. -/
lemma ServerEdit.idle_of_apply {e : ServerEdit} {s t : ServerSettings}
    (hs : apply re s e = .later) (ht : apply re t e = oddSettings) : e.Idle re := by
  -- the two blocks differ in every field, so an edit that sets a field cannot give both
  have differ : ∀ {V : Type} (F : ServerSettings → V), F .later ≠ F oddSettings →
      F (apply re s e) ≠ F (apply re t e) := fun F hF => by rw [hs, ht]; exact hF
  cases e with
  | listenPort p => exact absurd rfl (differ ServerSettings.listenPort (by decide))
  | serverName p => exact absurd rfl (differ ServerSettings.serverName (by decide))
  | staticRoot p => exact absurd rfl (differ ServerSettings.staticRoot (by decide))
  | tlsEnabled p => exact absurd rfl (differ ServerSettings.tlsEnabled (by decide))
  | tlsListenPort p => exact absurd rfl (differ ServerSettings.tlsListenPort (by decide))
  | certFile p => exact absurd rfl (differ ServerSettings.certFile (by decide))
  | keyFile p => exact absurd rfl (differ ServerSettings.keyFile (by decide))
  | proxyEnabled p => exact absurd rfl (differ ServerSettings.proxyEnabled (by decide))
  | mode p => exact absurd rfl (differ ServerSettings.mode (by decide))
  | connectTimeout p => exact absurd rfl (differ ServerSettings.connectTimeout (by decide))
  | upstreamTimeout p => exact absurd rfl (differ ServerSettings.upstreamTimeout (by decide))
  | keepaliveConns p => exact absurd rfl (differ ServerSettings.keepaliveConns (by decide))
  | cacheEnabled p => exact absurd rfl (differ ServerSettings.cacheEnabled (by decide))
  | cacheRoot p => exact absurd rfl (differ ServerSettings.cacheRoot (by decide))
  | defaultTtl p => exact absurd rfl (differ ServerSettings.defaultTtl (by decide))
  | maxEntries p => exact absurd rfl (differ ServerSettings.maxEntries (by decide))
  | gzipEnabled p => exact absurd rfl (differ ServerSettings.gzipEnabled (by decide))
  | minLength p => exact absurd rfl (differ ServerSettings.minLength (by decide))
  | loadModule p =>
    have hlist : (apply re s (.loadModule p)).modules = [] := by rw [hs]; rfl
    rw [apply] at hlist
    split_ifs at hlist with hroom
    · simp at hlist
    · rw [hlist] at hroom
      exact absurd (by decide) hroom
  | backend b =>
    have hlist : (apply re s (.backend b)).backends = [] := by rw [hs]; rfl
    rw [apply] at hlist
    split_ifs at hlist with hroom
    · simp at hlist
    · rw [hlist] at hroom
      exact absurd (by decide) hroom
  | rewrite p r =>
    have hlist : (apply re s (.rewrite p r)).rewrite = [] := by rw [hs]; rfl
    rw [apply] at hlist
    split_ifs at hlist with hroom
    · simp at hlist
    · rw [hlist] at hroom
      rw [Idle, Bool.eq_false_iff]
      exact fun hre => hroom ⟨by decide, hre⟩
  | tryFiles ps =>
    have hlist : (apply re s (.tryFiles ps)).tryFiles = [] := by rw [hs]; rfl
    rw [apply, List.append_eq_nil_iff] at hlist
    rw [hlist.1] at hlist
    simpa [Idle, configMaxTryFiles] using hlist.2

/-- A file of sixteen blocks, the last of which makes the record `b.record re .later`. -/
def sixteenBlocks (b : ServerBlock) : List UInt8 :=
  ServerBlock.texts (bareBlock :: (List.replicate 14 bareBlock ++ [b]))

lemma wholeLines_linesText (ls : List (List UInt8)) : Pieces.WholeLines lf (linesText ls) := by
  induction ls using List.reverseRecOn with
  | nil => exact Or.inl rfl
  | append_singleton ls l _ =>
    refine Or.inr ?_
    simp [linesText]

lemma wholeLines_texts (bs : List ServerBlock) : Pieces.WholeLines lf (ServerBlock.texts bs) := by
  have htexts : ServerBlock.texts bs = linesText (bs.flatMap fun b => b.header :: b.body) :=
    List.flatMap_assoc.symm
  rw [htexts]
  exact wholeLines_linesText _

lemma wholeLines_sixteenBlocks (b : ServerBlock) : Pieces.WholeLines lf (sixteenBlocks b) :=
  wholeLines_texts _

/-- The records of the file of sixteen blocks. -/
lemma servers_sixteenBlocks (re : List UInt8 → Bool) (b : ServerBlock) :
    (readFile re (sixteenBlocks b)).settings.servers
      = (.first :: List.replicate 14 .later) ++ [b.record re .later] := by
  refine (ServerBlock.servers_readFile_texts re bareBlock (List.replicate 14 bareBlock ++ [b])
    (by simp [configMaxServers])).trans ?_
  rw [List.map_append, List.map_replicate, record_bareBlock, record_bareBlock]
  rfl

/-- A text that leaves the last of sixteen records alone does so with all its edits. -/
lemma foldl_surplusEdits_eq {rest : List UInt8} (hrest : BeginsServer rest) (b : ServerBlock)
    (h : serverRecord re (sixteenBlocks b ++ rest) 15 = serverRecord re (sixteenBlocks b) 15) :
    (surplusEdits rest).foldl (ServerEdit.apply re) (b.record re .later) = b.record re .later := by
  have hservers := servers_sixteenBlocks re b
  have hfull : configMaxServers ≤ (readFile re (sixteenBlocks b)).settings.servers.length := by
    rw [hservers]
    exact le_rfl
  have happend := servers_readFile_append (wholeLines_sixteenBlocks b) hfull hrest hservers
  rw [serverRecord_eq (by rw [happend]; simp), serverRecord_eq (by rw [hservers]; simp), happend,
    hservers] at h
  exact Option.some.inj h

/-- **Surplus server blocks.** The text from the seventeenth `[server]` line on leaves
every one of the sixteen records alone, whatever stands before it, exactly if it has
no edit of a server block other than idle ones. -/
theorem surplus_harmless_iff (re : List UInt8 → Bool) (rest : List UInt8)
    (hrest : BeginsServer rest) :
    (∀ first, Pieces.WholeLines lf first → serverLines first = 16 →
      ∀ k < 16, serverRecord re (first ++ rest) k = serverRecord re first k) ↔
      ∀ e ∈ surplusEdits rest, e.Idle re := by
  constructor
  · intro h
    by_contra hne
    obtain ⟨es₁, e, es₂, hsplit, he, hes₂⟩ := exists_last_not hne
    have hlast : ∀ b : ServerBlock, serverLines (sixteenBlocks b) = 16 →
        ServerEdit.apply re (es₁.foldl (ServerEdit.apply re) (b.record re .later)) e
          = b.record re .later := by
      intro b hb
      have hb := foldl_surplusEdits_eq hrest b (h _ (wholeLines_sixteenBlocks b) hb 15 (by decide))
      rw [hsplit, List.foldl_append, List.foldl_cons, foldl_apply_idle hes₂] at hb
      exact hb
    refine he (ServerEdit.idle_of_apply (hlast bareBlock ?_) ((hlast oddBlock ?_).trans
      record_oddBlock))
    · decide +kernel
    · decide +kernel
  · intro h first hfirst hcount k hk
    have hlen : (readFile re first).settings.servers.length = 16 := by
      rw [length_servers_readFile, hcount]
      rfl
    obtain ⟨l, x, hx⟩ : ∃ l x, (readFile re first).settings.servers = l ++ [x] :=
      List.eq_nil_or_concat' _ |>.resolve_left fun hnil => by simp [hnil] at hlen
    have happend : (readFile re (first ++ rest)).settings.servers
        = (readFile re first).settings.servers := by
      rw [servers_readFile_append hfirst hlen.ge hrest hx, foldl_apply_idle h, hx]
    rw [serverRecord_eq (by rw [happend, hlen]; exact hk), serverRecord_eq (by rw [hlen]; exact hk),
      happend]

/-- A surplus block that sets nothing of its own. -/
theorem surplus_harmless_global :
    BeginsServer (bytes "[server]\nworker_processes = 2\n") ∧
      ∀ first, Pieces.WholeLines lf first → serverLines first = 16 → ∀ k < 16,
        serverRecord (fun _ => true) (first ++ bytes "[server]\nworker_processes = 2\n") k
          = serverRecord (fun _ => true) first k := by
  have hbegins : BeginsServer (bytes "[server]\nworker_processes = 2\n") := by decide +kernel
  refine ⟨hbegins, (surplus_harmless_iff (fun _ => true) _ hbegins).mpr ?_⟩
  decide +kernel

/-- The port of a seventeenth block becomes that of the sixteenth. -/
theorem exists_surplus_harm :
    ¬∀ (re : List UInt8 → Bool) (first rest : List UInt8), Pieces.WholeLines lf first →
      serverLines first = 16 → BeginsServer rest →
      ∀ k < 16, serverRecord re (first ++ rest) k = serverRecord re first k := by
  intro h
  have hbegins : BeginsServer (bytes "[server]\nlisten_port = 9090\n") := by decide +kernel
  have hedits : surplusEdits (bytes "[server]\nlisten_port = 9090\n") = [.listenPort 9090] := by
    decide +kernel
  have hlast := foldl_surplusEdits_eq hbegins bareBlock (h (fun _ => true) _ _
    (wholeLines_sixteenBlocks bareBlock) (by decide +kernel) hbegins 15 (by decide))
  rw [hedits] at hlast
  exact absurd (congrArg ServerSettings.listenPort hlast) (by decide)

end Nproxy
