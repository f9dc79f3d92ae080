import FlatWeights.Proofs.Conversion.Effect

/-!
What a run that fails leaves behind. Until the commit nothing but the staging directory is written
to, and that is removed again. The commit moves the files to their places one after the other, and
moves none of them back: where it comes to the place of a directory, the files before it remain, in
place of those of an earlier run (`HalfPublished`). And where an atomic write is barred by a
directory of the way to the output directory, that directory is removed, so that the files in the
staging directory are out of reach and remain (`Stranded`). In all other cases everything is as it
was (`Untouched`).

Once all files are in their places a run does not fail any more: to remove the staging directory is
never refused then (`perform_of_possible`). It could be if a device failed, which none does here.
-/

set_option autoImplicit false

namespace FlatWeights

open Emitter

namespace Disk

variable {d d₀ d₁ e : Disk} {base : Path} {buffer : Nat} {output : OutputSettings} {l k : Location}
  {outs done : List OutputTensor} {naming : Naming} {checkpoint : Checkpoint} {name : String}

/-! ## The end of a run that fails -/

/-- What looks as it did when the run began outside of the staging directory, with nothing new in it
but directories on the way to it, is untouched. -/
theorem Begun.untouched (h : Begun base output l d d₁)
    (hview : ∀ k, ¬ ".staging" :: l <:+ k → e.tree.find? k = d₁.tree.find? k)
    (hinside : ∀ k, ".staging" :: l <:+ k → d.tree.find? k = none → e.tree.find? k = none ∨
      e.tree.find? k = some .directory ∧ k ∈ d.visits (outputPath base output)) :
    Untouched (outputPath base output) d e := by
  refine ⟨fun k found hk hfound => ?_, fun k hk => ?_⟩
  · have hsuf : ¬ ".staging" :: l <:+ k := fun hsuf => hk ⟨l, h.lead, hsuf⟩
    rw [hview k hsuf]
    rcases h.outside k hsuf with hsame | ⟨hnone, -, -⟩
    · rw [hsame, hfound]
    · exact absurd (hfound.symm.trans hnone) (by simp)
  · by_cases hsuf : ".staging" :: l <:+ k
    · exact hinside k hsuf hk
    · rw [hview k hsuf]
      rcases h.outside k hsuf with hsame | ⟨-, hdir, hmem⟩
      · exact .inl (hsame.trans hk)
      · exact .inr ⟨hdir, hmem⟩

/-- Once the staging directory is removed, nothing new is left in its place but directories on the
way to the output directory. -/
theorem Begun.without_staging (h : Begun base output l d d₁) (hout : outputPath base output ≠ "")
    (hstaging : e.DirAt (stagingPath base output) (".staging" :: l))
    (horigin : e.origin (stagingPath base output) = d₁.origin (stagingPath base output)) :
    (∀ k, ¬ ".staging" :: l <:+ k →
      (e.without (stagingPath base output)).tree.find? k = e.tree.find? k) ∧
      ∀ k, ".staging" :: l <:+ k → d.tree.find? k = none →
        (e.without (stagingPath base output)).tree.find? k = none ∨
          (e.without (stagingPath base output)).tree.find? k = some .directory ∧
            k ∈ d.visits (outputPath base output) := by
  obtain ⟨hcleared, hself⟩ := hstaging.cleared_staging hout
  refine ⟨hcleared.outside, fun k hk hnone => ?_⟩
  by_cases hne : k = ".staging" :: l
  · -- the directory itself remains only if the way to the output directory leads through it
    subst hne
    refine hself.imp_right ?_
    rintro ⟨hdirectory, k, hmem, hsuf, -⟩
    rw [origin_staging hout, origin_staging hout] at horigin
    rw [visits, horigin] at hmem
    exact ⟨hdirectory, h.entered k (WorkingDir.visits_of_fell h.fell hmem) hsuf hnone⟩
  · exact .inl (hcleared.below k hk hne)

/-- Where the staging directory could be reached to the end, all is untouched. -/
theorem Begun.untouched_of_reached (h : Begun base output l d d₁)
    (hout : outputPath base output ≠ "") (hreached : Reached base output l d₁ e) :
    Untouched (outputPath base output) d (e.without (stagingPath base output)) := by
  obtain ⟨hkept, hinside⟩ := h.without_staging hout hreached.staging hreached.origin
  refine h.untouched (fun k hk => ?_) hinside
  rw [hkept k hk, hreached.outside k hk]

/-! ## Files that are out of reach -/

/-- Nothing but the way to the output directory is in the staging directory when a run begins. -/
theorem Begun.mem_visits_of_inside (h : Begun base output l d d₁)
    (hout : outputPath base output ≠ "")
    (hsuf : ".staging" :: l <:+ k) (hk : k ≠ ".staging" :: l)
    (hdirectory : d₁.tree.find? k = some .directory) : k ∈ d₁.visits (outputPath base output) := by
  rw [h.inside k hsuf] at hdirectory
  split at hdirectory
  · rename_i hmem
    exact ((mem_visits_staging hout (h.out hout).1.lead?).1 hmem).resolve_right hk
  · exact absurd hdirectory (by simp)

/-- Once the directory that barred a file is removed, the staging directory is out of reach. -/
theorem Begun.without_barred (h : Begun base output l d d₁) (hout : outputPath base output ≠ "")
    (hstaged : Staged base output l d₁ done e) (hbarred : d₁.Barred base output l name) :
    (e.without (base.join (tempPath output name))).without (stagingPath base output) =
      e.without (base.join (tempPath output name)) := by
  have hx := isName_tempName hbarred.valid
  have hdir := hstaged.dirAt h.staging
  have htakes := hstaged.limits.takesEntry hbarred.takes
  have horigin : e.origin (outputPath base output) = d₁.origin (outputPath base output) := by
    have hsame := hstaged.origin
    rwa [origin_staging hout, origin_staging hout] at hsame
  rw [join_tempPath]
  refine (without_eq_self_or hout isName_staging _).resolve_right ?_
  rintro ⟨k, hopen, -⟩
  -- what was removed is on the way to the output directory, and the way does not begin in it
  refine not_dirAt_of_cut hout isName_staging hx hdir htakes ?_ ?_ k hopen
  · rw [visits, horigin]
    exact h.mem_visits_of_inside hout (List.suffix_cons _ _) (List.cons_ne_self _ _)
      hbarred.stands
  · rw [horigin]
    exact h.not_suffix_ground _

/-- Then all is untouched exactly if none of the files that were staged is new. -/
theorem Begun.untouched_iff_of_barred (h : Begun base output l d d₁)
    (hout : outputPath base output ≠ "") (hstaged : Staged base output l d₁ done e)
    (hbarred : d₁.Barred base output l name) :
    Untouched (outputPath base output) d (e.without (base.join (tempPath output name))) ↔
      ¬ ∃ t ∈ done, d.tree.find? (fileName t.name :: ".staging" :: l) = none := by
  obtain ⟨hcleared, hleft⟩ := without_cleared (hstaged.dirAt h.staging)
    (isName_tempName hbarred.valid) (hstaged.limits.takesEntry hbarred.takes)
  rw [← join_tempPath] at hcleared hleft
  have hmem : tempName name :: ".staging" :: l ∈ d.visits (outputPath base output) :=
    WorkingDir.visits_of_fell h.fell <|
      h.mem_visits_of_inside hout (List.suffix_cons _ _) (List.cons_ne_self _ _)
        hbarred.stands
  -- only what was removed is missing from what the run had staged
  have hview : ∀ k, ¬ tempName name :: ".staging" :: l <:+ k →
      (e.without (base.join (tempPath output name))).tree.find? k =
        overlay (".staging" :: l) (lastFile? done) d₁.tree.find? k := by
    intro k hk
    rw [hcleared.outside k hk, hstaged.view]
  constructor
  · rintro huntouched ⟨t, ht, hnone⟩
    obtain ⟨content, hcontent⟩ := exists_lastFile? hstaged.files ht
    have hthere : (e.without (base.join (tempPath output name))).tree.find?
        (fileName t.name :: ".staging" :: l) = some (.file content) := by
      rw [hview, overlay_eq_file hcontent]
      intro hsuf
      have heq := List.IsSuffix.eq_of_length hsuf rfl
      exact tempName_ne_fileName (hstaged.names t ht) (List.cons.inj heq).1
    rcases huntouched.nothingNew _ hnone with hgone | ⟨hdirectory, -⟩
    · exact absurd (hthere.symm.trans hgone) (by simp)
    · exact absurd (hthere.symm.trans hdirectory) (by simp)
  · intro hold
    refine h.untouched (fun k hk => ?_) fun k hk hnone => ?_
    · rw [hview k fun hsuf => hk ((List.suffix_cons _ _).trans hsuf), overlay_of_not_suffix hk]
    · -- where the removal took place nothing is left, or the directory itself, which is on the way
      by_cases hsuf : tempName name :: ".staging" :: l <:+ k
      · by_cases hself : k = tempName name :: ".staging" :: l
        · subst hself
          exact hleft.imp_right fun hdirectory => ⟨hdirectory.1, hmem⟩
        · exact .inl (hcleared.below k hsuf hself)
      · rw [hview k hsuf, overlay_of_no_output]
        · have hentry : d₁.tree.find? k = none ∨ d₁.tree.find? k = some .directory := by
            rw [h.inside k hk]
            split <;> simp
          refine hentry.imp_right fun hdirectory => ⟨hdirectory, ?_⟩
          by_cases hself : k = ".staging" :: l
          · subst hself
            exact h.entered _ hmem (List.suffix_cons _ _) hnone
          · exact WorkingDir.visits_of_fell h.fell
              (h.mem_visits_of_inside hout hk hself hdirectory)
        · rintro t ht rfl
          exact hold ⟨t, ht, hnone⟩

/-- A list is split in one way only at the first of its members with a property. -/
theorem takeWhile_of_split {α : Type} {p : α → Prop} [DecidablePred p] {all front back : List α}
    {first : α} (hsplit : all = front ++ first :: back) (hfront : ∀ x ∈ front, ¬ p x)
    (hfirst : p first) : all.takeWhile (fun x => ¬ p x) = front := by
  rw [hsplit, List.takeWhile_append_of_pos (by simpa using hfront),
    List.takeWhile_cons_of_neg (by simpa using hfirst), List.append_nil]

/-- The failure is that of writing a file that a directory barred once the run had begun, and of the
files staged before it one is new in the staging directory. -/
def Stranded (base : Path) (buffer : Nat) (output : OutputSettings) (naming : Naming)
    (checkpoint : Checkpoint) (d : Disk) (failure : Failure) : Prop :=
  ∃ l d₁ name, d.lead? (outputPath base output) = some l ∧
    d.outcome (start (Storage.below base buffer) output) = (.ok { output }, d₁) ∧
    d₁.Barred base output l name ∧
    failure = .write (base.join (tempPath output name)) .createFile ∧
    (∃ t ∈ checkpoint.resolved naming, t.name = name) ∧
    ∃ t ∈ (checkpoint.resolved naming).takeWhile fun t => t.name ≠ name,
      d.tree.find? (fileName t.name :: ".staging" :: l) = none

/-- A run is stranded at a barred name exactly when one of the files staged before it is new to the
output directory. -/
theorem stranded_iff {t : OutputTensor} {rest : List OutputTensor}
    (hlead : d.lead? (outputPath base output) = some l)
    (hstart : d.outcome (start (Storage.below base buffer) output) = (.ok { output }, d₁))
    (hbarred : d₁.Barred base output l t.name)
    (hresolved : checkpoint.resolved naming = done ++ t :: rest)
    (hdone : ∀ t' ∈ done, t'.name ≠ t.name) :
    Stranded base buffer output naming checkpoint d
        (.write (base.join (tempPath output t.name)) .createFile) ↔
      ∃ t' ∈ done, d.tree.find? (fileName t'.name :: ".staging" :: l) = none := by
  have hbefore : (checkpoint.resolved naming).takeWhile (fun t' => t'.name ≠ t.name) = done :=
    takeWhile_of_split hresolved hdone rfl
  constructor
  · rintro ⟨l', -, name, hlead', -, -, hfailure, -, hnew⟩
    obtain rfl : l = l' := Option.some.inj (hlead.symm.trans hlead')
    obtain rfl : t.name = name := tempPath_injective (Failure.write.inj hfailure).1
    rwa [hbefore] at hnew
  · intro hnew
    refine ⟨l, d₁, t.name, hlead, hstart, hbarred, rfl, ⟨t, by simp [hresolved], rfl⟩, ?_⟩
    rwa [hbefore]

/-! ## Files that have taken their places -/

/-- The failure is that of putting a file in the place of a directory, and a file of a smaller name
was not in its place before. -/
def HalfPublished (base : Path) (output : OutputSettings) (naming : Naming)
    (checkpoint : Checkpoint) (d : Disk) (failure : Failure) : Prop :=
  ∃ l outs, d.lead? (outputPath base output) = some l ∧ checkpoint.outputs naming = .ok outs ∧
    ∃ blocked ∈ outs, failure = .write (base.join (stagedPath output blocked.name))
      (.renameTo (base.join (finalPath output blocked.name))) ∧
      ∃ t ∈ outs, t.name < blocked.name ∧ d.tree.find? (fileName t.name :: l) ≠
        (lastFile? outs (fileName t.name)).map Entry.file

/-- In a list of names that increase, those before a name are the smaller ones. -/
theorem mem_front_iff {names front back : List String} {blocked : String}
    (hsorted : names.Pairwise (· < ·)) (hsplit : names = front ++ blocked :: back) {n : String}
    (hn : n ∈ names) : n ∈ front ↔ n < blocked := by
  subst hsplit
  obtain ⟨-, hrest, hcross⟩ := List.pairwise_append.1 hsorted
  constructor
  · exact fun hfront => hcross n hfront blocked (by simp)
  · intro hlt
    rcases List.mem_append.1 hn with hfront | hback
    · exact hfront
    · rcases List.mem_cons.1 hback with rfl | hback
      · exact absurd hlt (String.lt_irrefl n)
      · exact absurd (String.lt_trans hlt ((List.pairwise_cons.1 hrest).1 n hback))
          (String.lt_irrefl n)

section Blocked

variable {next : Emitter} {front back : List String} {blocked : String}

/-- A file before the one that could not take its place has taken its own. -/
theorem find?_of_front (hready : Ready base output l d₁ outs)
    (hview : ∀ k, ¬ ".staging" :: l <:+ k →
      e.tree.find? k = overlay l (filesOf front (lastFile? outs)) d₁.tree.find? k)
    {t : OutputTensor} (ht : t ∈ outs) (hfront : t.name ∈ front) :
    ∃ content, lastFile? outs (fileName t.name) = some content ∧
      e.tree.find? (fileName t.name :: l) = some (.file content) := by
  obtain ⟨content, hcontent⟩ := exists_lastFile? hready.files ht
  refine ⟨content, hcontent, ?_⟩
  rw [hview _ (file_not_in_staging t.name l)]
  refine overlay_eq_file ?_
  rw [filesOf, if_pos (List.mem_map_of_mem hfront), hcontent]

variable (hbegun : Begun base output l d d₁) (houts : checkpoint.outputs naming = .ok outs)
  (hnames : ∀ n, n ∈ next.written.toList ↔ ∃ t ∈ outs, t.name = n)
  (hsplit : next.written.toList = front ++ blocked :: back) (hready : Ready base output l d₁ outs)

include hbegun houts hnames hsplit hready

/-- A commit that is blocked half-way shows exactly when a file it moved first is not the one that
was there. -/
theorem halfPublished_iff : HalfPublished base output naming checkpoint d
      (.write (base.join (stagedPath output blocked))
        (.renameTo (base.join (finalPath output blocked)))) ↔
    ∃ t ∈ outs, t.name ∈ front ∧ d.tree.find? (fileName t.name :: l) ≠
      (lastFile? outs (fileName t.name)).map Entry.file := by
  -- files take their places in the order of their names
  have hfront : ∀ t ∈ outs, t.name ∈ front ↔ t.name < blocked := fun t ht =>
    mem_front_iff next.written.keys_pairwise hsplit ((hnames t.name).2 ⟨t, ht, rfl⟩)
  obtain ⟨b, hb, rfl⟩ := (hnames blocked).1 (by rw [hsplit]; simp)
  constructor
  · rintro ⟨l', outs', hl', houts', other, hother, hfailure, t, ht, hlt, hne⟩
    obtain rfl : l = l' := Option.some.inj (hbegun.lead.symm.trans hl')
    obtain rfl : outs = outs' := Except.ok.inj (houts.symm.trans houts')
    have hsame : b.name = other.name :=
      stagedPath_injective (hready.names b hb) (hready.names other hother)
        (Failure.write.inj hfailure).1
    rw [← hsame] at hlt
    exact ⟨t, ht, (hfront t ht).2 hlt, hne⟩
  · rintro ⟨t, ht, hmem, hne⟩
    exact ⟨l, outs, hbegun.lead, houts, b, hb, rfl, t, ht, (hfront t ht).1 hmem, hne⟩

/-- Where a file of the run could not take its place, the rest is untouched exactly if the files
that have taken theirs were there before. -/
theorem untouched_iff_of_blocked
    (hview : ∀ k, ¬ ".staging" :: l <:+ k →
      e.tree.find? k = overlay l (filesOf front (lastFile? outs)) d₁.tree.find? k)
    (hinside : ∀ k, ".staging" :: l <:+ k → d.tree.find? k = none → e.tree.find? k = none ∨
      e.tree.find? k = some .directory ∧ k ∈ d.visits (outputPath base output)) :
    Untouched (outputPath base output) d e ↔ ¬ HalfPublished base output naming checkpoint d
      (.write (base.join (stagedPath output blocked))
        (.renameTo (base.join (finalPath output blocked)))) := by
  rw [halfPublished_iff hbegun houts hnames hsplit hready]
  constructor
  · -- a file that has taken its place is new there, or has replaced another one
    rintro huntouched ⟨t, ht, hfront, hne⟩
    obtain ⟨content, hcontent, hthere⟩ := find?_of_front hready hview ht hfront
    rw [hcontent] at hne
    cases hfound : d.tree.find? (fileName t.name :: l) with
    | none =>
      rcases huntouched.nothingNew _ hfound with hnone | ⟨hdir, -⟩
      · exact absurd (hthere.symm.trans hnone) (by simp)
      · exact absurd (hthere.symm.trans hdir) (by simp)
    | some found =>
      have hkept : e.tree.find? (fileName t.name :: l) = some found := by
        refine huntouched.kept _ _ ?_ hfound
        rintro ⟨l', hl', hsuf⟩
        obtain rfl : l = l' := Option.some.inj (hbegun.lead.symm.trans hl')
        exact file_not_in_staging t.name l hsuf
      exact hne (hfound.trans (hkept.symm.trans hthere))
  · intro hnot
    refine hbegun.untouched (fun k hk => ?_) hinside
    -- a file that has taken its place was there before, and nothing else has changed
    by_cases hfile : ∃ n ∈ front, k = fileName n :: l
    · obtain ⟨n, hn, rfl⟩ := hfile
      obtain ⟨t, ht, rfl⟩ := (hnames n).1 (by simp [hsplit, hn])
      obtain ⟨content, hcontent, hthere⟩ := find?_of_front hready hview ht hn
      have hbefore : d.tree.find? (fileName t.name :: l) = some (.file content) := by
        by_contra hne
        exact hnot ⟨t, ht, hn, by rwa [hcontent]⟩
      rcases hbegun.outside _ hk with hsame | ⟨hnone, -, -⟩
      · rw [hthere, hsame, hbefore]
      · exact absurd (hbefore.symm.trans hnone) (by simp)
    · rw [hview k hk]
      exact overlay_of_no_file fun n hn hkn => hfile ⟨n, hn, hkn⟩

end Blocked

/-! ## Runs that fail -/

/-- Something of a run that fails remains. -/
def Remains (base : Path) (buffer : Nat) (output : OutputSettings) (naming : Naming)
    (checkpoint : Checkpoint) (d : Disk) (failure : Failure) : Prop :=
  HalfPublished base output naming checkpoint d failure ∨
    Stranded base buffer output naming checkpoint d failure

/-- A failure of another kind is neither that of a file that could not take its place nor that of
one that was barred. -/
theorem not_remains {failure : Failure}
    (hmove : ∀ outs, checkpoint.outputs naming = .ok outs →
      ∀ n q, failure ≠ .write (base.join (stagedPath output n)) (.renameTo q))
    (hwrite : ∀ l d₁ t, d.lead? (outputPath base output) = some l →
      d.outcome (start (Storage.below base buffer) output) = (.ok { output }, d₁) →
      t ∈ checkpoint.resolved naming → d₁.Barred base output l t.name →
      failure ≠ .write (base.join (tempPath output t.name)) .createFile) :
    ¬ Remains base buffer output naming checkpoint d failure := by
  rintro (⟨l, outs, -, houts, blocked, -, hfailure, -⟩ |
    ⟨l, d₁, name, hlead, hstart, hbarred, hfailure, ⟨t, ht, rfl⟩, -⟩)
  · exact hmove outs houts _ _ hfailure
  · exact hwrite l d₁ t hlead hstart ht hbarred hfailure

/-- A run in which not everything was staged leaves everything as it was, unless staged files are
out of reach. -/
theorem Begun.untouched_iff_of_refused (h : Begun base output l d d₁)
    (hout : outputPath base output ≠ "")
    (hstart : d.outcome (start (Storage.below base buffer) output) = (.ok { output }, d₁))
    {failure : Failure}
    (hleft : (∃ done t rest, checkpoint.resolved naming = done ++ t :: rest ∧
        Halted base output l d₁ done t (.failed failure) e) ∨
      checkpoint.outputs naming = .error (.failed failure) ∧
        Staged base output l d₁ (checkpoint.resolved naming) e) :
    Untouched (outputPath base output) d (e.without (stagingPath base output)) ↔
      ¬ Remains base buffer output naming checkpoint d failure := by
  -- the location and the disk that `Stranded` speaks of are those of this run
  have hthis : ∀ l' d', d.lead? (outputPath base output) = some l' →
      d.outcome (start (Storage.below base buffer) output) = (.ok { output }, d') →
        l' = l ∧ d' = d₁ := by
    intro l' d' hlead' hstart'
    exact ⟨Option.some.inj (hlead'.symm.trans h.lead),
      (Prod.mk.inj (hstart'.symm.trans hstart)).2⟩
  rcases hleft with ⟨done, t, rest, hresolved, hhalted⟩ | ⟨herror, hstaged⟩
  · cases hhalted with
    | reached hreached haside =>
      refine iff_of_true (h.untouched_of_reached hout hreached) (not_remains ?_ ?_)
      · exact fun _ _ n q heq => haside.noMove n q (congrArg Stop.failed heq)
      · intro l' d' t' hlead' hstart' _ hbarred heq
        obtain ⟨rfl, rfl⟩ := hthis l' d' hlead' hstart'
        exact haside.noWrite t'.name hbarred (congrArg Stop.failed heq)
    | cut hstaged hbarred =>
      have hdone : ∀ t' ∈ done, t'.name ≠ t.name := by
        intro t' ht' heq
        refine hbarred.not_hasPlace ?_
        rw [← heq]
        exact hstaged.places t' ht'
      have hnot : ¬ HalfPublished base output naming checkpoint d
          (.write (base.join (tempPath output t.name)) .createFile) := by
        rintro ⟨_, _, -, -, _, -, hfailure, -⟩
        exact absurd (Failure.write.inj hfailure).2 (by simp)
      rw [h.without_barred hout hstaged hbarred, h.untouched_iff_of_barred hout hstaged hbarred,
        Remains, or_iff_right hnot, stranded_iff h.lead hstart hbarred hresolved hdone]
  · refine iff_of_true (h.untouched_of_reached hout (hstaged.reached (.refl
      (hstaged.dirAt h.staging)))) (not_remains ?_ ?_)
    · exact fun outs houts => absurd (herror.symm.trans houts) (by simp)
    · intro l' d' t hlead' hstart' ht hbarred _
      obtain ⟨rfl, rfl⟩ := hthis l' d' hlead' hstart'
      exact hbarred.not_hasPlace (hstaged.places t ht)

/-- A run that fails leaves everything as it was, unless something of it remains. -/
theorem perform_failed (hout : outputPath base output ≠ "") {failure : Failure}
    (h : (d.run (Conversion.perform (Storage.below base buffer) output naming
      checkpoint)).1.result = .error (.failed failure)) :
    Untouched (outputPath base output) d
        (d.run (Conversion.perform (Storage.below base buffer) output naming checkpoint)).2 ↔
      ¬ Remains base buffer output naming checkpoint d failure := by
  cases hstart : d.outcome (start (Storage.below base buffer) output) with
  | mk result d₁ =>
  cases result with
  | error stop =>
    obtain ⟨huntouched, p, hstop⟩ := start_failed hout hstart
    rw [run_perform, hstart] at h ⊢
    obtain rfl : stop = .failed failure := Except.error.inj h
    obtain rfl : failure = .write p .createDirectories := Stop.failed.inj hstop
    exact iff_of_true huntouched (not_remains (by simp) (by simp))
  | ok emitter =>
  obtain ⟨rfl, l, hbegun⟩ := begun_of_start hout hstart
  -- a run with nothing in its way succeeds; in the other cases something may remain
  rcases possible_or_refused_or_blocked base buffer output naming checkpoint l d₁ with
    ⟨outs, next, hpossible⟩ | hno | ⟨outs, next, houts, hnext, hfits, hblocked⟩
  · obtain ⟨_, _, _, -, -, hrun⟩ := perform_of_possible hout hstart hbegun hpossible
    rw [hrun] at h
    exact absurd h (by simp)
  · obtain ⟨stop, _, e, hrun, hleft⟩ := perform_of_refused hout hstart hbegun hno
    rw [hrun] at h ⊢
    obtain rfl : stop = .failed failure := Except.error.inj h
    exact hbegun.untouched_iff_of_refused hout hstart hleft
  · obtain ⟨_, e, front, blocked, back, hsplit, hrun, hpublished, hready, hclear, -⟩ :=
      perform_of_blocked hout hstart hbegun houts hnext hfits hblocked
    rw [hrun] at h ⊢
    obtain rfl := Stop.failed.inj (Except.error.inj h)
    obtain ⟨hkept, hinside⟩ := hbegun.without_staging hout (hpublished.dirAt hready hclear).1
      hpublished.origin
    have hnot : ¬ Stranded base buffer output naming checkpoint d
      (.write (base.join (stagedPath output
        blocked)) (.renameTo (base.join (finalPath output blocked)))) := by
      rintro ⟨_, _, _, -, -, -, hfailure, -⟩
      exact absurd (Failure.write.inj hfailure).2 (by simp)
    rw [Remains, or_iff_left hnot]
    refine untouched_iff_of_blocked hbegun houts (mem_written_iff hnext) hsplit hready
      (fun k hk => ?_) hinside
    rw [hkept k hk, hpublished.outside hk]

/-- A conversion that fails leaves everything as it was, unless something of it remains: files that
have taken their places, or staged files that are out of reach. It makes no difference whether the
tensors come from a file, for a file that cannot be opened is not converted. -/
theorem convert_failed {config : Config} {converter : Converter (StateM Disk)}
    (hmake : d₀.outcome (Converter.ofConfig config) = (.ok converter, d₁)) {failure : Failure} :
    (∀ checkpoint, (d.run (converter.convert checkpoint)).1.result = .error (.failed failure) →
      (Untouched (outputPath "." config.output) d (d.run (converter.convert checkpoint)).2 ↔
        ¬ Remains "." config.storage.bufferSize config.output config.naming checkpoint d failure)) ∧
      ∀ path e, d.outcome (converter.convertFile path) = (.error (.failed failure), e) →
        (Untouched (outputPath "." config.output) d e ↔
          ∀ file, d.outcome (converter.openCheckpoint path) = (.ok file, d) →
            ¬ Remains "." config.storage.bufferSize config.output config.naming file.checkpoint d
              failure) := by
  obtain ⟨-, rfl⟩ := converter_of_config hmake
  have hconvert : ∀ checkpoint, (d.run (Converter.convert (converterOf config)
      checkpoint)).1.result = .error (.failed failure) →
      (Untouched (outputPath "." config.output) d (d.run (Converter.convert
        (converterOf config) checkpoint)).2 ↔
        ¬ Remains "." config.storage.bufferSize config.output config.naming checkpoint d
          failure) := by
    intro checkpoint h
    simp only [convert_converterOf] at h ⊢
    exact perform_failed (outputPath_ne_empty config.output) h
  refine ⟨hconvert, fun path e h => ?_⟩
  -- opening a file changes nothing, so that one that is not opened leaves all as it was
  rw [outcome_convertFile] at h
  have hsame := outcome_openCheckpoint (converterOf config) path d
  cases hopen : d.outcome (Converter.openCheckpoint (converterOf config) path) with
  | mk result d' =>
  rw [hopen] at h hsame
  obtain rfl : d' = d := hsame
  cases result with
  | error stop =>
    obtain ⟨-, rfl⟩ := Prod.mk.inj h
    exact iff_of_true (Grown.refl _ d').untouched fun file hfile =>
      absurd (Prod.mk.inj hfile).1 (by simp)
  | ok file =>
    obtain ⟨hresult, rfl⟩ := Prod.mk.inj h
    rw [hconvert file.checkpoint hresult]
    constructor
    · rintro hnot file' hfile'
      obtain rfl := Except.ok.inj (Prod.mk.inj hfile').1
      exact hnot
    · exact fun hall => hall file rfl

/-! ### A run that fails half way -/

/-- Two tensors of one element. -/
def twoTensors : Checkpoint :=
  .ofList [("a", .ok ⟨"a", [1], [1]⟩), ("b", .ok ⟨"b", [1], [2]⟩)]

/-- The converter that writes to the directory `out`. -/
def outward : Converter (StateM Disk) := converterOf { output := { dir := "out" } }

/-- The output directory with the file of an earlier run, and a directory in the place of a file. -/
def occupied : Disk :=
  { blank with tree := ((FileTree.empty.insert ["out"] .directory).insert ["b.bin", "out"]
      .directory).insert ["a.bin", "out"] (.file [111, 108, 100]) }

/-- The failure to put a file in the place of the directory. -/
def inTheWay : Failure := .write "./out/.staging/b.bin" (.renameTo "./out/b.bin")

/-- A directory bars the second of two files from its place: the first is published by the run that
fails. -/
theorem convert_failed_occupied :
    blank.outcome (Converter.ofConfig outward.config) = (.ok outward, blank) ∧
      (occupied.run (outward.convert twoTensors)).1.result = .error (.failed inTheWay) ∧
      ¬ Untouched (outputPath "." outward.config.output) occupied
        (occupied.run (outward.convert twoTensors)).2 ∧
      Untouched (outputPath "." outward.config.output) occupied
        (occupied.outcome (outward.convertFile "nowhere")).2 := by
  have hmake : blank.outcome (Converter.ofConfig outward.config) = (.ok outward, blank) :=
    outcome_ofConfig (by decide +kernel) (by decide +kernel)
  have hlead : occupied.lead? (outputPath "." outward.config.output) = some ["out"] := by
    decide +kernel
  have hresult : (occupied.run (outward.convert twoTensors)).1.result =
      .error (.failed inTheWay) := by decide +kernel
  have hhalf : HalfPublished "." outward.config.output outward.config.naming twoTensors occupied
      inTheWay := by
    refine ⟨["out"], [⟨"a", ⟨1, 1, 1⟩, [1]⟩, ⟨"b", ⟨1, 1, 1⟩, [2]⟩], hlead, by decide +kernel,
      ⟨"b", ⟨1, 1, 1⟩, [2]⟩, by simp, by decide +kernel, ⟨"a", ⟨1, 1, 1⟩, [1]⟩, by simp,
      by decide +kernel, by decide +kernel⟩
  have hopen : (occupied.outcome (outward.convertFile "nowhere")).1 =
      .error (.failed (.storeOpen "nowhere" .cannotOpenCheckpoint)) := by decide +kernel
  refine ⟨hmake, hresult, fun huntouched => ?_, ?_⟩
  · have hfailed := (convert_failed (d := occupied) hmake).1 twoTensors hresult
    exact hfailed.1 huntouched (.inl hhalf)
  · have hfailed := (convert_failed (d := occupied) hmake).2 "nowhere" _
      (Prod.ext hopen rfl)
    exact hfailed.2 fun _ _ => not_remains (by simp) (by simp)

end Disk

end FlatWeights
