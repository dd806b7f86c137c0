import Mathlib.Data.String.Basic
import NfOrchestrator.Data.Pages
import NfOrchestrator.Deploy.Listing

/-!
# NfOrchestrator.Deploy.Paging

**Listing while releases are installed.** helm prints a page of the releases there are when
it is asked, in their alphabetical order, so an install shifts every later release. None
of those that were there from the start is missed for it (`listing_complete`): one not yet
read stays behind the offset, and a page that is not full has nothing behind it. What
moved onto a second page is kept once.
-/

namespace NfOrchestrator.Deploy

variable (cfg : Settings)

/-! ### The cluster -/

/-- The releases there are, and those there were when each page was read. -/
structure Cluster where
  releases : Finset String
  reads : List (Finset String)

/-- Before the first page. -/
def Cluster.start (releases : Finset String) : Cluster := ⟨releases, []⟩

/-- The text is a JSON array with one object for each name. -/
def Prints (stdout : String) (names : List String) : Prop :=
  ∃ items, Json.loads stdout = .ok (.arr items) ∧
    List.Forall₂ (fun item name => item.subscript "name" = .ok (.str name)) items names

/-- Any releases may be installed before a page is read. helm answers each call. -/
def growing (page : ℕ) : Env sig Cluster := fun o c r c' =>
  match o, r with
  | .spawn _, failure => failure = none ∧ c' = c
  | .finish command _, outcome =>
      ∀ offset, command = "helm" :: listArgs cfg page offset →
        ∃ releases stdout stderr, c.releases ⊆ releases ∧
          c' = ⟨releases, c.reads ++ [releases]⟩ ∧ outcome = .completed 0 stdout stderr ∧
          Prints stdout (Pages.page page offset releases)
  | _, _ => c' = c

/-! ### One page -/

theorem addName_str (seen : List String) (name : String) :
    addName (seen.map .str) (.str name) = (Pages.insert seen name).map .str := by
  have hany : ((seen.map Json.str).any fun known => Json.pyEq known (.str name)) =
      decide (name ∈ seen) := by
    rw [Bool.eq_iff_iff, List.any_map, List.any_eq_true, decide_eq_true_iff]
    simp [Json.pyEq, Json.isStr]
  rw [addName, Pages.insert, hany]
  by_cases h : name ∈ seen
  · simp [h]
  · simp [h]

theorem addNames_str {items : List Json} {names : List String}
    (h : List.Forall₂ (fun item name => item.subscript "name" = .ok (.str name)) items names)
    (seen : List String) :
    addNames (seen.map .str) items = .ok ((Pages.collect seen names).map .str) := by
  induction h generalizing seen with
  | nil => rfl
  | cons hitem _ ih =>
      rw [addNames, hitem]
      exact (addName_str seen _ ▸ ih _ : _)

theorem readPage_prints {page : ℕ} {stdout : String} {names : List String}
    (h : Prints stdout names) (seen : List String) :
    readPage page (seen.map .str) stdout =
      .ok ((Pages.collect seen names).map .str, decide (names.length < page)) := by
  obtain ⟨items, hloads, hitems⟩ := h
  have hlength : items.length = names.length := hitems.length_eq
  rw [readPage, hloads]
  change (addNames (seen.map .str) items >>= fun names => _) = _
  rw [addNames_str hitems, ← hlength]
  rfl

/-- A page is what helm prints of the releases there are by then. -/
theorem wp_runHelm_growing {page offset : ℕ} {c : Cluster}
    {Q : Except Exc String → Cluster → Prop}
    (h : ∀ releases stdout, c.releases ⊆ releases →
      Prints stdout (Pages.page page offset releases) →
        Q (.ok stdout) ⟨releases, c.reads ++ [releases]⟩) :
    (runHelm cfg (listArgs cfg page offset)).wp (growing cfg page).spec Q c := by
  rw [runHelm, runBounded, runBoundedWith, Prog.wp_bind, wp_subprocessRun]
  intro failure _ hx
  obtain ⟨rfl, rfl⟩ := hx
  intro outcome c' hfinish
  obtain ⟨releases, stdout, stderr, hgrown, rfl, rfl, hprints⟩ := hfinish offset rfl
  rw [Prog.bindPost_ok]
  change (afterExit 0 stdout stderr).wp _ _ _
  rw [afterExit, if_neg (by simp), noteSuccess, Prog.wp_bind, Prog.wp_bind, wp_monotonic]
  intro now _ hx
  subst hx
  rintro ⟨⟩ _ rfl
  exact h releases stdout hgrown hprints

/-! ### The whole listing -/

/-- Between two pages: what was read, and what is so of the releases from the start. -/
structure Reading (start : Finset String) (page offset : ℕ) (seen : List String) (c : Cluster) :
    Prop where
  nodup : seen.Nodup
  grown : start ⊆ c.releases
  found : ∀ name ∈ start, name ∈ seen ∨ name ∈ Pages.behind c.releases offset
  existed : ∀ name ∈ seen, ∃ releases ∈ c.reads, name ∈ releases
  offset_eq : offset = page * c.reads.length
  /-- As long as nothing is installed. -/
  still : (∀ releases ∈ c.reads, releases = start) →
    seen = start.sort.take offset ∧ offset ≤ start.card

/-- What a listing has found at its end. -/
structure Listed (start : Finset String) (page : ℕ) (names : List String) (c : Cluster) : Prop where
  nodup : names.Nodup
  complete : ∀ name ∈ start, name ∈ names
  existed : ∀ name ∈ names, ∃ releases ∈ c.reads, name ∈ releases
  still : (∀ releases ∈ c.reads, releases = start) →
    names = start.sort ∧ c.reads.length = start.card / page + 1

theorem reading_start (start : Finset String) (page : ℕ) :
    Reading start page 0 [] (.start start) where
  nodup := List.nodup_nil
  grown := subset_rfl
  found := fun name hname => .inr ((Finset.mem_sort _).mpr hname)
  existed := by simp
  offset_eq := rfl
  still := fun _ => ⟨by simp, Nat.zero_le _⟩

section step

variable {start releases : Finset String} {page offset : ℕ} {seen : List String} {c : Cluster}

/-- While nothing is installed, a page adds the next names in helm's order. -/
theorem collect_still (hseen : seen = start.sort.take offset) :
    Pages.collect seen (Pages.page page offset start) = start.sort.take (offset + page) := by
  have hpieces : seen ++ Pages.page page offset start = start.sort.take (offset + page) := by
    rw [hseen, Pages.page, Pages.behind, List.take_add]
  rw [Pages.collect_fresh, hpieces]
  rw [hpieces]
  exact (start.sort_nodup _).sublist (List.take_sublist _ _)

theorem Reading.existed_next (h : Reading start page offset seen c) :
    ∀ name ∈ Pages.collect seen (Pages.page page offset releases),
      ∃ r ∈ c.reads ++ [releases], name ∈ r := by
  intro name hname
  rcases Pages.mem_collect.mp hname with hseen | hpage
  · obtain ⟨r, hr, hmem⟩ := h.existed name hseen
    exact ⟨r, List.mem_append_left _ hr, hmem⟩
  · exact ⟨releases, by simp, Pages.mem_of_mem_page hpage⟩

/-- A release from the start has been read, or is behind the next offset. -/
theorem Reading.found_next (h : Reading start page offset seen c) (hgrown : c.releases ⊆ releases)
    {name : String} (hname : name ∈ start) :
    name ∈ Pages.collect seen (Pages.page page offset releases) ∨
      name ∈ Pages.behind releases (offset + page) := by
  rcases h.found name hname with hseen | hbehind
  · exact .inl (Pages.mem_collect.mpr (.inl hseen))
  · rcases Pages.behind_page (Pages.behind_mono hgrown hbehind) with hpage | hbehind
    · exact .inl (Pages.mem_collect.mpr (.inr hpage))
    · exact .inr hbehind

/-- A full page leaves the listing between two pages. -/
theorem Reading.next (h : Reading start page offset seen c) (hpage : 0 < page)
    (hgrown : c.releases ⊆ releases)
    (hfull : ¬(Pages.page page offset releases).length < page) :
    Reading start page (offset + page) (Pages.collect seen (Pages.page page offset releases))
      ⟨releases, c.reads ++ [releases]⟩ where
  nodup := Pages.nodup_collect h.nodup _
  grown := h.grown.trans hgrown
  found := fun _ hname => h.found_next hgrown hname
  existed := h.existed_next
  offset_eq := by
    rw [h.offset_eq, List.length_append, List.length_singleton]
    ring
  still := by
    intro hstill
    obtain ⟨hbefore, hnow⟩ := List.forall_mem_append.mp hstill
    obtain rfl : releases = start := hnow releases (List.mem_singleton_self _)
    refine ⟨collect_still (h.still hbefore).1, ?_⟩
    rw [Pages.length_page] at hfull
    omega

/-- A page that is not full ends it. -/
theorem Reading.last (h : Reading start page offset seen c) (hgrown : c.releases ⊆ releases)
    (hshort : (Pages.page page offset releases).length < page) :
    Listed start page (Pages.collect seen (Pages.page page offset releases))
      ⟨releases, c.reads ++ [releases]⟩ where
  nodup := Pages.nodup_collect h.nodup _
  complete := by
    intro name hname
    rcases h.found_next hgrown hname with hseen | hbehind
    · exact hseen
    · rw [Pages.behind_short hshort] at hbehind
      cases hbehind
  existed := h.existed_next
  still := by
    intro hstill
    obtain ⟨hbefore, hnow⟩ := List.forall_mem_append.mp hstill
    obtain rfl : releases = start := hnow releases (List.mem_singleton_self _)
    obtain ⟨hseen, hoffset⟩ := h.still hbefore
    rw [Pages.length_page] at hshort
    constructor
    · rw [collect_still hseen, List.take_of_length_le]
      rw [Finset.length_sort]
      omega
    · rw [List.length_append, List.length_singleton, Nat.add_right_cancel_iff]
      have hoff := h.offset_eq
      refine (Nat.div_eq_of_lt_le ?_ ?_).symm
      · rw [mul_comm]
        omega
      · rw [add_mul, one_mul, mul_comm]
        omega

end step

/-- A listing ends with what it is to find, or has read every page it may. -/
theorem wp_listFrom {start : Finset String} {page : ℕ} (hpage : 0 < page) (pages : ℕ)
    {offset : ℕ} {seen : List String} {c : Cluster} (h : Reading start page offset seen c) :
    (listFrom cfg page pages offset (seen.map .str)).wp (growing cfg page).spec
      (fun x c' => (x = .ok none ∧ c'.reads.length = c.reads.length + pages ∧
          ∃ offset seen, Reading start page offset seen c') ∨
        ∃ names : List String, x = .ok (some (names.map .str)) ∧ Listed start page names c') c := by
  induction pages generalizing offset seen c with
  | zero => exact .inl ⟨rfl, rfl, offset, seen, h⟩
  | succ pages ih =>
      rw [listFrom, Prog.wp_bind]
      refine wp_runHelm_growing cfg fun releases stdout hgrown hprints => ?_
      rw [Prog.bindPost_ok, readPage_prints hprints]
      by_cases hlast : (Pages.page page offset releases).length < page
      · rw [decide_eq_true hlast]
        exact .inr ⟨_, rfl, h.last hgrown hlast⟩
      · rw [decide_eq_false hlast]
        refine Prog.wp_mono (Env.spec_mono _) ?_ (ih (h.next hpage hgrown hlast))
        intro x c' hx
        rcases hx with ⟨rfl, hlength, hreading⟩ | hlisted
        · refine .inl ⟨rfl, ?_, hreading⟩
          rw [hlength, List.length_append, List.length_singleton]
          omega
        · exact .inr hlisted

/-- **Paged listing.** What a listing returns repeats nothing, has every release there was
before its first page, and no name that was not there when some page was read. While nothing
is installed it ends, after as many calls as there are full pages and one more, with the
releases in helm's order. -/
theorem listing_complete {page pages : ℕ} (hpage : 0 < page) {start : Finset String}
    {x : Except Exc (Option (List Json))} {c : Cluster}
    (h : (listReleases cfg page pages).Runs (growing cfg page) (.start start) x c) :
    (∀ found, x = .ok (some found) → ∃ names : List String, found = names.map .str ∧
      names.Nodup ∧ (∀ name ∈ start, name ∈ names) ∧
      ∀ name ∈ names, ∃ releases ∈ c.reads, name ∈ releases) ∧
    ((∀ releases ∈ c.reads, releases = start) → start.card / page < pages →
      x = .ok (some (start.sort.map .str)) ∧ c.reads.length = start.card / page + 1) := by
  rcases h.post (wp_listFrom cfg hpage pages (reading_start start page)) with
    ⟨rfl, hlength, offset, seen, hreading⟩ | ⟨names, rfl, hlisted⟩
  · refine ⟨fun found hfound => (by cases hfound), fun hstill hpages => ?_⟩
    have hoffset := (hreading.still hstill).2
    rw [hreading.offset_eq, hlength, Cluster.start, List.length_nil, Nat.zero_add,
      mul_comm] at hoffset
    have hread := (Nat.le_div_iff_mul_le hpage).mpr hoffset
    omega
  · refine ⟨fun found hfound => ?_, fun hstill hpages => ?_⟩
    · obtain rfl := Option.some.inj (Except.ok.inj hfound)
      exact ⟨names, rfl, hlisted.nodup, hlisted.complete, hlisted.existed⟩
    · obtain ⟨rfl, hreads⟩ := hlisted.still hstill
      exact ⟨rfl, hreads⟩

theorem listArgs_inj {page offset offset' : ℕ}
    (h : listArgs cfg page offset = listArgs cfg page offset') : offset = offset' := by
  have htext : toString offset = toString offset' := by
    have hget := congrArg (fun args => args[6]?) h
    exact Option.some.inj hget
  have hdigits := congrArg String.toList htext
  rw [Nat.toString_eq_repr, Nat.toString_eq_repr, Nat.toList_repr, Nat.toList_repr] at hdigits
  have hvalue := congrArg (Nat.ofDigitChars 10 · 0) hdigits
  simpa [Nat.ofDigitChars_ten_toDigits] using hvalue

/-- Any page can be read, with any releases installed before. -/
theorem runs_runHelm_growing {page offset : ℕ} {c : Cluster} {releases : Finset String}
    {stdout : String} (hgrown : c.releases ⊆ releases)
    (hprints : Prints stdout (Pages.page page offset releases)) :
    (runHelm cfg (listArgs cfg page offset)).Runs (growing cfg page) c (.ok stdout)
      ⟨releases, c.reads ++ [releases]⟩ := by
  refine ⟨none, _, ⟨rfl, rfl⟩, .completed 0 stdout "", _, fun offset' h => ?_, (0 : ℚ), _, rfl,
    (), _, rfl, rfl, rfl⟩
  obtain rfl := listArgs_inj cfg (List.cons.inj h).2
  exact ⟨releases, stdout, "", hgrown, rfl, rfl, hprints⟩

section runs

variable {page pages offset : ℕ} (seen : List String) {c c' : Cluster} (releases : Finset String)
  {stdout : String} {x : Except Exc (Option (List Json))}

theorem runs_listFrom_full (hgrown : c.releases ⊆ releases)
    (hprints : Prints stdout (Pages.page page offset releases))
    (hfull : ¬(Pages.page page offset releases).length < page)
    (hrest : (listFrom cfg page pages (offset + page)
        ((Pages.collect seen (Pages.page page offset releases)).map .str)).Runs (growing cfg page)
      ⟨releases, c.reads ++ [releases]⟩ x c') :
    (listFrom cfg page (pages + 1) offset (seen.map .str)).Runs (growing cfg page) c x c' := by
  refine Prog.Runs.bind (runs_runHelm_growing cfg hgrown hprints) ?_
  rw [readPage_prints hprints, decide_eq_false hfull]
  exact hrest

theorem runs_listFrom_short (hgrown : c.releases ⊆ releases)
    (hprints : Prints stdout (Pages.page page offset releases))
    (hshort : (Pages.page page offset releases).length < page) :
    (listFrom cfg page (pages + 1) offset (seen.map .str)).Runs (growing cfg page) c
      (.ok (some ((Pages.collect seen (Pages.page page offset releases)).map .str)))
      ⟨releases, c.reads ++ [releases]⟩ := by
  refine Prog.Runs.bind (runs_runHelm_growing cfg hgrown hprints) ?_
  rw [readPage_prints hprints, decide_eq_true hshort]
  exact ⟨rfl, rfl⟩

end runs

/-- A release is installed while its cluster is listed one by one, before the one there was. -/
theorem listing_complete_shifted :
    ∃ c, (listReleases defaultSettings 1 3).Runs (growing defaultSettings 1) (.start {"amf"})
        (.ok (some [.str "amf"])) c ∧
      c.reads = [{"amf"}, {"aaa", "amf"}, {"aaa", "amf"}] ∧
      ∃ names : List String, [Json.str "amf"] = names.map .str ∧ names.Nodup ∧
        (∀ name ∈ ({"amf"} : Finset String), name ∈ names) ∧
        ∀ name ∈ names, ∃ releases ∈ c.reads, name ∈ releases := by
  have hone : Prints "[\x7b\"name\": \"amf\"\x7d]" ["amf"] :=
    ⟨[.obj [("name", .str "amf")]], by decide +kernel, .cons rfl .nil⟩
  have hnone : Prints "[]" [] := ⟨[], by decide +kernel, .nil⟩
  have hsorted : ({"aaa", "amf"} : Finset String).sort = ["aaa", "amf"] := by
    have hlist : ({"aaa", "amf"} : Finset String) = ["aaa", "amf"].toFinset := by simp
    rw [hlist]
    exact (List.toFinset_sort _ (by decide)).mpr (by decide)
  have hfirst : Pages.page 1 0 ({"amf"} : Finset String) = ["amf"] := by
    simp [Pages.page, Pages.behind]
  have hsecond : Pages.page 1 1 ({"aaa", "amf"} : Finset String) = ["amf"] := by
    simp [Pages.page, Pages.behind, hsorted]
  have hthird : Pages.page 1 2 ({"aaa", "amf"} : Finset String) = [] := by
    simp [Pages.page, Pages.behind, hsorted]
  have hrun : (listReleases defaultSettings 1 3).Runs (growing defaultSettings 1) (.start {"amf"})
      (.ok (some [.str "amf"])) ⟨{"aaa", "amf"}, [{"amf"}, {"aaa", "amf"}, {"aaa", "amf"}]⟩ := by
    refine runs_listFrom_full defaultSettings [] {"amf"} subset_rfl (hfirst ▸ hone) ?_ ?_
    · rw [hfirst]
      decide
    rw [hfirst]
    refine runs_listFrom_full defaultSettings ["amf"] {"aaa", "amf"} (by simp) (hsecond ▸ hone)
      ?_ ?_
    · rw [hsecond]
      decide
    rw [hsecond]
    have hlast := @runs_listFrom_short defaultSettings 1 0 2 ["amf"]
      ⟨{"aaa", "amf"}, [{"amf"}, {"aaa", "amf"}]⟩ {"aaa", "amf"} "[]" subset_rfl (hthird ▸ hnone)
      (by rw [hthird]; decide)
    rw [hthird] at hlast
    exact hlast
  exact ⟨_, hrun, rfl, (listing_complete defaultSettings Nat.one_pos hrun).1 _ rfl⟩

end NfOrchestrator.Deploy
