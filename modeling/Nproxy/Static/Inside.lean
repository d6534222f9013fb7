import Nproxy.Proc.Worker

/-!
Static serving stays below `static_root`.

The names that `file_server_handle` gives to `open` are `static_root` followed by
the path of the request, or by an entry of `try_files` with the path put in for
`$uri`. The check against `..` reads the path alone, and nothing asks whether the
path begins with a slash.

* `InsideRoot root name`: what stands behind the root begins with a slash and has no
  component `..`;
* `expandUri`: an entry with the path put in, before anything is cut;
* `namesOpened`: the names one call opens;
* `names_inside_iff`: they are inside, whatever the server, exactly when the path is
  turned down, or begins with a slash and does not end in `/.`.
-/

namespace Nproxy

/-! ### Inside a directory -/

/-- The name of something below `root`: behind it stands a path that begins with a
slash and never goes up. -/
def InsideRoot (root name : List UInt8) : Prop :=
  ∃ s, name = root ++ s ∧ s.head? = some 47 ∧ bytes ".." ∉ s.splitOn 47

lemma insideRoot_append {root s : List UInt8} :
    InsideRoot root (root ++ s) ↔ s.head? = some 47 ∧ bytes ".." ∉ s.splitOn 47 := by
  constructor
  · rintro ⟨s', heq, h⟩
    rw [List.append_cancel_left heq]
    exact h
  · exact fun h => ⟨s, rfl, h⟩

/-- A component is preceded by a separator, if one stands in front of the whole. -/
lemma cons_infix_of_mem_splitOn {α : Type} [DecidableEq α] {x : α} {c : List α} :
    ∀ {s : List α}, c ∈ s.splitOn x → x :: c <:+: x :: s := by
  intro s
  induction hn : s.length using Nat.strong_induction_on generalizing s with
  | _ n ih =>
    intro hc
    by_cases hx : x ∈ s
    · obtain ⟨a, b, rfl, ha⟩ := List.eq_append_cons_of_mem hx
      rw [List.splitOn_append_cons_self] at hc
      rcases List.mem_append.mp hc with hc | hc
      · rw [List.splitOn_eq_singleton ha, List.mem_singleton] at hc
        rw [hc]
        exact (List.prefix_append (x :: a) (x :: b)).isInfix
      · have hlt : b.length < n := by
          rw [← hn, List.length_append, List.length_cons]
          omega
        exact (ih b.length hlt rfl hc).trans (List.suffix_append (x :: a) (x :: b)).isInfix
    · rw [List.splitOn_eq_singleton hx, List.mem_singleton] at hc
      rw [hc]

/-- A path that begins with a slash goes up only where `/..` stands in it. -/
lemma notMem_splitOn_of_not_infix {s : List UInt8} (hhead : s.head? = some 47)
    (hdots : ¬bytes "/.." <:+: s) : bytes ".." ∉ s.splitOn 47 := by
  obtain ⟨t, rfl⟩ := List.head?_eq_some_iff.mp hhead
  intro hmem
  rw [← List.nil_append (47 :: t), List.splitOn_append_cons_self, List.splitOn_nil] at hmem
  rcases List.mem_append.mp hmem with h | h
  · exact absurd h (by decide)
  · exact hdots (cons_infix_of_mem_splitOn h)

/-- Cutting a name behind the root leaves it inside. -/
lemma insideRoot_take {root s : List UInt8} {n : ℕ} (hn : root.length < n)
    (hhead : s.head? = some 47) (hdots : ¬bytes "/.." <:+: s) :
    InsideRoot root ((root ++ s).take n) := by
  obtain ⟨t, rfl⟩ := List.head?_eq_some_iff.mp hhead
  rw [List.take_append, List.take_of_length_le hn.le, insideRoot_append]
  obtain ⟨k, hk⟩ : ∃ k, n - root.length = k + 1 := ⟨n - root.length - 1, by omega⟩
  have hcut : ((47 :: t).take (n - root.length)).head? = some 47 := by rw [hk]; rfl
  refine ⟨hcut, notMem_splitOn_of_not_infix hcut fun h => hdots ?_⟩
  exact h.trans (List.take_prefix _ _).isInfix

/-! ### Entries of `try_files` -/

/-- An entry with `uri` put in for every `$uri`. -/
def expandUri (uri : List UInt8) : ℕ → List UInt8 → List UInt8
  | 0, _ => []
  | fuel + 1, src =>
    if src = [] then []
    else if src.take 4 = bytes "$uri" then uri ++ expandUri uri fuel (src.drop 4)
    else src.take 1 ++ expandUri uri fuel (src.drop 1)

lemma take_take_append {α : Type} (n : ℕ) (a b : List α) :
    (a.take n ++ b).take n = (a ++ b).take n := by
  have hrest : n - min n a.length = n - a.length := by omega
  rw [List.take_append, List.take_append, List.take_take, List.length_take, Nat.min_self, hrest]

/-- `tmp_path` holds as much of the expanded entry as fits. -/
lemma expandTryFile_eq (uri : List UInt8) (fuel : ℕ) (src out : List UInt8) (n : ℕ)
    (hn : out.length = min n 8191) :
    (expandTryFile uri fuel src out n).1 = (out ++ expandUri uri fuel src).take 8191 := by
  induction fuel generalizing src out n with
  | zero =>
    rw [expandTryFile, expandUri, List.append_nil, List.take_of_length_le (by omega)]
  | succ fuel ih =>
    rw [expandTryFile, expandUri]
    by_cases hstop : src = [] ∨ ¬n < 8191
    · rw [if_pos hstop]
      rcases hstop with hsrc | hfull
      · rw [if_pos hsrc, List.append_nil, List.take_of_length_le (by omega)]
      · rw [List.take_append_of_le_length (by omega), List.take_of_length_le (by omega)]
    · obtain ⟨hsrc, hroom⟩ := not_or.mp hstop
      rw [if_neg hstop, if_neg hsrc]
      split
      · rw [ih _ _ _ (by rw [List.length_take, List.length_append]; omega), take_take_append,
          List.append_assoc]
      · have hone : (src.take 1).length = 1 := by
          rw [List.length_take]
          have := List.length_pos_iff.mpr hsrc
          omega
        rw [ih _ _ _ (by rw [List.length_append]; omega), List.append_assoc]

lemma slash_dots_split {l₁ l₂ : List UInt8} (h : bytes "/.." = l₁ ++ l₂) :
    (l₁ = [] ∧ l₂ = bytes "/..") ∨ (l₁ = bytes "/" ∧ l₂ = bytes "..") ∨
      (l₁ = bytes "/." ∧ l₂ = bytes ".") ∨ (l₁ = bytes "/.." ∧ l₂ = []) := by
  have hbytes : [47, 46, 46] = l₁ ++ l₂ := h
  simp only [List.cons_eq_append_iff, List.nil_eq_append_iff] at hbytes
  rcases hbytes with h0 | ⟨_, rfl, h1 | ⟨_, rfl, h2 | ⟨_, rfl, h3, rfl⟩⟩⟩
  · exact Or.inl h0
  · exact Or.inr (Or.inl ⟨by rw [h1.1]; rfl, h1.2⟩)
  · exact Or.inr (Or.inr (Or.inl ⟨by rw [h2.1]; rfl, h2.2⟩))
  · exact Or.inr (Or.inr (Or.inr ⟨by rw [h3]; rfl, rfl⟩))

section

variable {uri : List UInt8} (hhead : uri.head? = some 47)
include hhead

/-- A dot at the front of an expanded entry was at the front of the entry. -/
lemma expandUri_dot {fuel : ℕ} {src rest : List UInt8}
    (h : expandUri uri fuel src = 46 :: rest) :
    ∃ fuel' src', src = 46 :: src' ∧ rest = expandUri uri fuel' src' := by
  obtain ⟨u, rfl⟩ := List.head?_eq_some_iff.mp hhead
  cases fuel with
  | zero => exact absurd h (by simp [expandUri])
  | succ fuel =>
    rw [expandUri] at h
    cases src with
    | nil => exact absurd h (by simp)
    | cons c src =>
      rw [if_neg (List.cons_ne_nil c src)] at h
      split at h
      · exact absurd h (by simp)
      · rw [List.take_succ_cons, List.take_zero, List.singleton_append, List.cons.injEq] at h
        exact ⟨fuel, src, by rw [h.1], h.2.symm⟩

lemma not_dots_prefix_expandUri {fuel : ℕ} {src : List UInt8} (hsrc : ¬bytes ".." <:+: src) :
    ¬bytes ".." <+: expandUri uri fuel src := by
  rintro ⟨rest, h⟩
  obtain ⟨fuel₁, src₁, rfl, h₁⟩ := expandUri_dot hhead h.symm
  obtain ⟨fuel₂, src₂, rfl, -⟩ := expandUri_dot hhead h₁.symm
  exact hsrc (List.prefix_append (bytes "..") src₂).isInfix

/-- An expanded entry goes up nowhere, if neither the entry nor the path has two dots
and the path does not end in `/.`. -/
lemma not_infix_expandUri (huri : ¬bytes ".." <:+: uri) (hend : ¬bytes "/." <:+ uri) {fuel : ℕ}
    {src : List UInt8} (hsrc : ¬bytes ".." <:+: src) :
    ¬bytes "/.." <:+: expandUri uri fuel src := by
  have hsub : bytes ".." <:+: bytes "/.." := ⟨bytes "/", [], rfl⟩
  induction fuel generalizing src with
  | zero => rw [expandUri]; decide
  | succ fuel ih =>
    rw [expandUri]
    cases src with
    | nil => rw [if_pos rfl]; decide
    | cons c src =>
      rw [if_neg (List.cons_ne_nil c src)]
      split
      · have hrest : ¬bytes ".." <:+: (c :: src).drop 4 :=
          fun h => hsrc (h.trans (List.drop_suffix _ _).isInfix)
        rw [List.infix_append_iff]
        rintro (h | h | ⟨l₁, l₂, heq, hl₁, hl₂⟩)
        · exact huri (hsub.trans h)
        · exact ih hrest h
        · -- the bytes `/..` lie across the end of the path
          rcases slash_dots_split heq with ⟨rfl, rfl⟩ | ⟨rfl, rfl⟩ | ⟨rfl, rfl⟩ | ⟨rfl, rfl⟩
          · exact ih hrest hl₂.isInfix
          · exact not_dots_prefix_expandUri hhead hrest hl₂
          · exact hend hl₁
          · exact huri (hsub.trans hl₁.isInfix)
      · have hrest : ¬bytes ".." <:+: src := fun h => hsrc (h.trans (List.suffix_cons _ _).isInfix)
        rw [List.take_succ_cons, List.take_zero, List.singleton_append, List.drop_succ_cons,
          List.drop_zero, List.infix_cons_iff]
        rintro (h | h)
        · exact not_dots_prefix_expandUri hhead hrest (List.cons_prefix_cons.mp h).2
        · exact ih hrest h

/-- An entry that begins with a slash or with `$uri` gives a path that begins with a
slash. -/
lemma expandUri_head {src : List UInt8} (hsrc : src.head? = some 47 ∨ bytes "$uri" <+: src) :
    (expandUri uri src.length src).head? = some 47 := by
  rcases hsrc with hslash | ⟨t, rfl⟩
  · obtain ⟨t, rfl⟩ := List.head?_eq_some_iff.mp hslash
    have hplain : ¬(47 :: t).take 4 = bytes "$uri" := by
      rw [List.take_succ_cons]
      exact fun h => absurd (List.cons.inj h).1 (by decide)
    rw [List.length_cons, expandUri, if_neg (List.cons_ne_nil 47 t), if_neg hplain]
    rfl
  · have hlen : (bytes "$uri" ++ t).length = t.length + 3 + 1 := by
      rw [List.length_append, Nat.add_comm]
      rfl
    have htake : (bytes "$uri" ++ t).take 4 = bytes "$uri" := rfl
    rw [hlen, expandUri, if_neg (List.append_ne_nil_of_left_ne_nil (by decide) t), if_pos htake,
      List.head?_append, hhead]
    rfl

end

/-! ### The names that are opened -/

/-- A server with a root and entries of `try_files` as the documentation has them: the
root fits in its array, and the entries begin with a slash or with `$uri` and have no
two dots in a row. -/
structure ServerConfig.Documented (cfg : ServerConfig) : Prop where
  root : cfg.staticRoot.length < 512
  entries : ∀ entry ∈ cfg.tryFiles,
    (entry.head? = some 47 ∨ bytes "$uri" <+: entry) ∧ ¬bytes ".." <:+: entry

/-- The names that may be opened for a request, one after the other. -/
def fileNames (junk : ℕ → UInt8) (cfg : ServerConfig) (req : HttpRequest) : List (List UInt8) :=
  if cfg.tryFiles.length > 0 then cfg.tryFiles.map (tryFileName cfg req)
  else [plainFileName junk cfg req]

lemma length_staticPath (req : HttpRequest) : (staticPath req).length ≤ 4095 := by
  have hcstr : (staticPath req).length ≤ (req.path.bytes.take (staticPlen req)).length :=
    (List.takeWhile_prefix _).length_le
  rw [List.length_take, staticPlen] at hcstr
  omega

lemma tryFileName_eq (cfg : ServerConfig) (req : HttpRequest) (entry : List UInt8) :
    tryFileName cfg req entry =
      (cfg.staticRoot ++ (expandUri (staticPath req) entry.length entry).take 8191).take 8191 := by
  rw [tryFileName, expandTryFile_eq _ _ _ _ _ rfl, List.nil_append]

section

variable {cfg : ServerConfig} {req : HttpRequest} (hcfg : cfg.Documented)
  (hdots : ¬bytes ".." <:+: staticPath req) (hhead : (staticPath req).head? = some 47)
include hcfg hdots hhead

lemma tryFileName_inside (hend : ¬bytes "/." <:+ staticPath req) {entry : List UInt8}
    (hentry : entry ∈ cfg.tryFiles) :
    InsideRoot cfg.staticRoot (tryFileName cfg req entry) := by
  obtain ⟨hstart, hplain⟩ := hcfg.entries entry hentry
  have hroot := hcfg.root
  rw [tryFileName_eq]
  refine insideRoot_take (by omega) ?_ fun h => ?_
  · rw [List.head?_take, if_neg (by decide)]
    exact expandUri_head hhead hstart
  · exact not_infix_expandUri hhead hdots hend hplain (h.trans (List.take_prefix _ _).isInfix)

lemma plainFileName_inside (junk : ℕ → UInt8) :
    InsideRoot cfg.staticRoot (plainFileName junk cfg req) := by
  have hroot := hcfg.root
  have hsub : bytes ".." <:+: bytes "/.." := ⟨bytes "/", [], rfl⟩
  rw [plainFileName, List.append_assoc]
  refine insideRoot_take (by omega) ?_ ?_
  · rw [List.head?_append, hhead]
    rfl
  · split
    · rw [List.infix_append_iff]
      rintro (h | h | ⟨l₁, l₂, heq, hl₁, hl₂⟩)
      · exact hdots (hsub.trans h)
      · exact absurd h (by decide)
      · rcases slash_dots_split heq with ⟨rfl, rfl⟩ | ⟨rfl, rfl⟩ | ⟨rfl, rfl⟩ | ⟨rfl, rfl⟩
        · exact absurd hl₂ (by decide)
        · exact absurd hl₂ (by decide)
        · exact absurd hl₂ (by decide)
        · exact hdots (hsub.trans hl₁.isInfix)
    · rw [List.append_nil]
      exact fun h => hdots (hsub.trans h)

lemma fileNames_inside (hend : ¬bytes "/." <:+ staticPath req) (junk : ℕ → UInt8) :
    ∀ name ∈ fileNames junk cfg req, InsideRoot cfg.staticRoot name := by
  intro name hname
  rw [fileNames] at hname
  split at hname
  · obtain ⟨entry, hentry, rfl⟩ := List.mem_map.mp hname
    exact tryFileName_inside hcfg hdots hhead hend hentry
  · rw [List.mem_singleton.mp hname]
    exact plainFileName_inside hcfg hdots hhead junk

end

/-- The name that is opened, if the act is a call of `open`. -/
def Act.fileName : Act → Option (List UInt8)
  | .openFile name => some name
  | _ => none

namespace St

/-- From one state to another these names are opened. -/
def Opens (st st' : St) (names : List (List UInt8)) : Prop :=
  ∃ as, st'.acts = st.acts ++ as ∧ as.filterMap Act.fileName = names

namespace Opens

variable {st st' st'' : St} {names names' : List (List UInt8)}

lemma of_same (h : st'.acts = st.acts) : Opens st st' [] := ⟨[], by rw [h, List.append_nil], rfl⟩

lemma trans (h : Opens st st' names) (h' : Opens st' st'' names') :
    Opens st st'' (names ++ names') := by
  obtain ⟨as, hacts, rfl⟩ := h
  obtain ⟨as', hacts', rfl⟩ := h'
  exact ⟨as ++ as', by rw [hacts', hacts, List.append_assoc], List.filterMap_append⟩

lemma after (h : Opens st st' names) (h' : Opens st' st'' []) : Opens st st'' names := by
  rw [← List.append_nil names]
  exact h.trans h'

end Opens

lemma answerError_opens (st : St) (status : ℕ) (keepAlive : Bool) :
    Opens st (st.answerError status keepAlive) [] := .of_same rfl

lemma openRegular_opens (st : St) (name : List UInt8) :
    Opens st (st.openRegular name).2 [name] := by
  have hopen : Opens st (st.act (.openFile name)) [name] := ⟨[.openFile name], rfl, rfl⟩
  rw [openRegular]
  simp only
  split
  · exact hopen
  · split
    · exact hopen.after (.of_same rfl)
    · split
      · exact hopen.after (.of_same rfl)
      · split
        · exact hopen.after (.of_same rfl)
        · exact hopen.after ⟨[.close _], rfl, rfl⟩

/-- The entries are tried in their order, and the first one always. -/
lemma tryFilesLoop_opens (cfg : ServerConfig) (req : HttpRequest) (entries : List (List UInt8))
    (st : St) :
    ∃ k, Opens st (tryFilesLoop cfg req entries st).2
      ((entries.map (tryFileName cfg req)).take (k + 1)) := by
  induction entries generalizing st with
  | nil => exact ⟨0, .of_same rfl⟩
  | cons entry entries ih =>
    have hopen := openRegular_opens st (tryFileName cfg req entry)
    rw [tryFilesLoop]
    split <;> rename_i heq <;> rw [heq] at hopen
    · exact ⟨0, hopen⟩
    · obtain ⟨k, hrest⟩ := ih _
      exact ⟨k + 1, hopen.trans hrest⟩

lemma findFile_opens (st : St) (req : HttpRequest) (cfg : ServerConfig) :
    ∃ k, Opens st (st.findFile req cfg).2 ((fileNames st.env.junk cfg req).take (k + 1)) := by
  rw [findFile, fileNames]
  split
  · exact tryFilesLoop_opens cfg req cfg.tryFiles st
  · have hopen := openRegular_opens st (plainFileName st.env.junk cfg req)
    simp only
    split <;> rename_i heq <;> rw [heq] at hopen <;> exact ⟨0, hopen⟩

/-- A path with two dots is turned down; otherwise the names are tried in their order,
and the first one always. -/
lemma fileServerHandle_opens (st : St) (req : HttpRequest) (cfg : ServerConfig) :
    if bytes ".." <:+: staticPath req then Opens st (st.fileServerHandle req cfg).2 []
    else ∃ k, Opens st (st.fileServerHandle req cfg).2
      ((fileNames st.env.junk cfg req).take (k + 1)) := by
  rw [fileServerHandle, pathIsSafe]
  split
  · rename_i hdots
    rw [if_pos (by simpa using hdots)]
    exact answerError_opens st 403 _
  · rename_i hdots
    rw [if_neg (by simpa using hdots)]
    obtain ⟨k, hfind⟩ := findFile_opens st req cfg
    refine ⟨k, ?_⟩
    split <;> rename_i heq <;> rw [heq] at hfind
    · exact hfind.after (answerError_opens _ 404 _)
    · split
      · exact hfind.after ⟨[.close _], rfl, rfl⟩
      · exact hfind.after ⟨[.respond _], rfl, rfl⟩

/-- The names that a call of `file_server_handle` opens. -/
def namesOpened (st : St) (req : HttpRequest) (cfg : ServerConfig) : List (List UInt8) :=
  ((st.fileServerHandle req cfg).2.acts.drop st.acts.length).filterMap Act.fileName

lemma Opens.namesOpened_eq {st : St} {req : HttpRequest} {cfg : ServerConfig}
    {names : List (List UInt8)} (h : Opens st (st.fileServerHandle req cfg).2 names) :
    st.namesOpened req cfg = names := by
  obtain ⟨as, hacts, rfl⟩ := h
  rw [namesOpened, hacts, List.drop_left]

end St

/-! ### Static serving -/

/-- A server with one entry in `try_files`. -/
def oneEntry (entry : List UInt8) : ServerConfig :=
  { backendServer with staticRoot := bytes "/srv", tryFiles := [entry] }

/-- A client that has just come. -/
def newcomer : St :=
  ⟨0, connCreate 4096 4 ⟨127, 0, 0, 1⟩, backendWorker.ws, idleEnv, []⟩

lemma oneEntry_documented {entry : List UInt8} (hstart : bytes "$uri" <+: entry)
    (hdots : ¬bytes ".." <:+: entry) : (oneEntry entry).Documented where
  root := by
    change (bytes "/srv").length < 512
    decide
  entries := by
    intro e he
    rw [List.mem_singleton.mp he]
    exact ⟨Or.inr hstart, hdots⟩

lemma mem_namesOpened_oneEntry {req : HttpRequest} (hdots : ¬bytes ".." <:+: staticPath req)
    (entry : List UInt8) :
    tryFileName (oneEntry entry) req entry ∈ newcomer.namesOpened req (oneEntry entry) := by
  have hopens := newcomer.fileServerHandle_opens req (oneEntry entry)
  rw [if_neg hdots] at hopens
  obtain ⟨k, hopens⟩ := hopens
  rw [hopens.namesOpened_eq]
  exact List.mem_cons_self

/-- An entry that puts at most one byte behind the path names a file in the root. -/
lemma tryFileName_oneEntry {req : HttpRequest} {entry t : List UInt8} (ht : t.length ≤ 1)
    (hexpand : expandUri (staticPath req) entry.length entry = staticPath req ++ t) :
    tryFileName (oneEntry entry) req entry = bytes "/srv" ++ (staticPath req ++ t) := by
  have hpath := length_staticPath req
  have hlen : (staticPath req ++ t).length ≤ 4096 := by
    rw [List.length_append]
    omega
  have hsrv : (bytes "/srv").length = 4 := rfl
  have hroot : (oneEntry entry).staticRoot = bytes "/srv" := rfl
  have hcut : (staticPath req ++ t).take 8191 = staticPath req ++ t :=
    List.take_of_length_le (by omega)
  rw [tryFileName_eq, hexpand, hcut, hroot]
  exact List.take_of_length_le (by rw [List.length_append, hsrv]; omega)

/-- Every name that is opened for a request is inside `static_root`, whatever the server
and the state, exactly when the path is turned down for two dots in a row, or begins with
a slash and does not end in `/.`. -/
theorem names_inside_iff (req : HttpRequest) :
    (∀ cfg : ServerConfig, cfg.Documented → ∀ st : St, ∀ name ∈ st.namesOpened req cfg,
      InsideRoot cfg.staticRoot name) ↔
    bytes ".." <:+: staticPath req ∨
      ((staticPath req).head? = some 47 ∧ ¬bytes "/." <:+ staticPath req) := by
  constructor
  · intro h
    by_cases hdots : bytes ".." <:+: staticPath req
    · exact Or.inl hdots
    have htried : ∀ entry t : List UInt8, bytes "$uri" <+: entry → ¬bytes ".." <:+: entry →
        t.length ≤ 1 → expandUri (staticPath req) entry.length entry = staticPath req ++ t →
        (staticPath req ++ t).head? = some 47 ∧
          bytes ".." ∉ (staticPath req ++ t).splitOn 47 := by
      intro entry t hstart hentry ht hexpand
      have hinside := h (oneEntry entry) (oneEntry_documented hstart hentry) newcomer _
        (mem_namesOpened_oneEntry hdots entry)
      rw [tryFileName_oneEntry ht hexpand] at hinside
      exact insideRoot_append.mp hinside
    refine Or.inr ⟨?_, ?_⟩
    · have hplain := (htried (bytes "$uri") [] (by decide) (by decide) (by decide) rfl).1
      rwa [List.append_nil] at hplain
    · -- the entry `$uri.` makes two dots out of one
      rintro ⟨q, hq⟩
      refine (htried (bytes "$uri.") (bytes ".") (by decide) (by decide) (by decide) rfl).2 ?_
      have hsplit : staticPath req ++ bytes "." = q ++ 47 :: bytes ".." := by
        rw [← hq, List.append_assoc]
        rfl
      rw [hsplit, List.splitOn_append_cons_self]
      exact List.mem_append_right _ (by decide)
  · rintro hpath cfg hcfg st name hname
    have hopens := st.fileServerHandle_opens req cfg
    by_cases hdots : bytes ".." <:+: staticPath req
    · rw [if_pos hdots] at hopens
      rw [hopens.namesOpened_eq] at hname
      exact absurd hname List.not_mem_nil
    · rw [if_neg hdots] at hopens
      obtain ⟨k, hopens⟩ := hopens
      rw [hopens.namesOpened_eq] at hname
      obtain ⟨hhead, hend⟩ := hpath.resolve_left hdots
      exact fileNames_inside hcfg hdots hhead hend _ name (List.mem_of_mem_take hname)

/-- A request whose target does not begin with a slash. -/
def slashless : List UInt8 := List.flatten [bytes "GET -old/key HTTP/1.1", crlf, crlf]

/-- The parser accepts it, and the file is looked for beside the root. -/
theorem exists_open_outside :
    ¬∀ data ps, parseFresh data = (.done, ps) → ∀ cfg : ServerConfig, cfg.Documented →
      ∀ st : St, ∀ name ∈ st.namesOpened (requestPopulate requestCreate ps data) cfg,
        InsideRoot cfg.staticRoot name := by
  intro h
  have hparse : (parseFresh slashless).1 = .done := by decide +kernel
  have hpath : staticPath (requestPopulate requestCreate (parseFresh slashless).2 slashless)
      = bytes "-old/key" := by decide +kernel
  generalize hres : parseFresh slashless = res at hparse hpath
  obtain ⟨r, ps⟩ := res
  subst hparse
  generalize hreq : requestPopulate requestCreate ps slashless = req at hpath
  have hdots : ¬bytes ".." <:+: staticPath req := by
    rw [hpath]
    decide
  have hname : tryFileName (oneEntry (bytes "$uri")) req (bytes "$uri")
      = bytes "/srv" ++ (staticPath req ++ []) := tryFileName_oneEntry (by decide) rfl
  have htried := h slashless ps hres (oneEntry (bytes "$uri"))
    (oneEntry_documented (by decide) (by decide)) newcomer
  rw [hreq] at htried
  have hinside := htried _ (mem_namesOpened_oneEntry hdots (bytes "$uri"))
  rw [hname, hpath] at hinside
  exact absurd (insideRoot_append.mp hinside).1 (by decide)

end Nproxy
