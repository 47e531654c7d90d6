import BuildProbe.Proofs.Artifact.Replacement
import BuildProbe.Proofs.Tree.Deadend
import BuildProbe.Proofs.World.Delivery

/-!
Running a request again. A probe that tells the same story once more asks for the same flags, and
as these are at the path already, nothing changes: the run succeeds, reports an unchanged artifact
and leaves every entry what it was. There is one path at which it cannot. If a path led to its
place only through the link in that place, the artifact has replaced that link, and the path leads
nowhere any more. Then the run fails at the path's directory, and nothing changes either.
-/
namespace BuildProbe

open BuildProbe.Path (Blank)

theorem Path.directoryPlain {p : Path} {before : List String} {name : String} {k : Nat}
    (named : ¬ Blank name) (pieces : p.pieces = before ++ name :: List.replicate k "")
    (plain : p.hasNul = false) : p.directory.hasNul = false := by
  obtain ⟨blanks, _, ⟨_, higher⟩ | ⟨same, _⟩⟩ := directoryPieces named pieces
  · rw [hasNul, pieces, higher] at plain
    simp only [List.any_append, Bool.or_eq_false_iff] at plain
    exact plain.1.1
  · rw [same]
    decide

namespace Tree

variable {t after : Tree} {site : Site} {p : Path} {flags : List Flag} {outcome : Outcome}

theorem directoryHalted {name : String} (last : (splitLast p.pieces).2 = .name name)
    (plain : p.hasNul = false) (halted : t.slot p = .error .notADirectory) :
    (∃ why, t.mkdir p.directory = .error why ∧ why ≠ .system .notFound) ∧
      t.isDirectory p.directory = false := by
  obtain ⟨_, stopped⟩ := slotHalted halted
  obtain ⟨⟨filled, stay, _⟩, k, pieces⟩ := splitLastName last
  have named : ¬ Blank name := fun blank => blank.elim filled stay
  have still : Halted (t.walk true linkLimit (t.base p.directory) p.directory.pieces) := by
    obtain ⟨blanks, blank, ⟨same, higher⟩ | ⟨_, _, bare⟩⟩ := Path.directoryPieces named pieces
    · rw [higher] at stopped
      rw [show t.base p.directory = t.base p by simp only [base, same]]
      exact haltedBlank blank stopped
    · rw [bare] at stopped
      exact absurd (walkBlank blank) ((haltedStops stopped).2 _)
  refine ⟨?_, isDirectoryHalted still⟩
  exact mkdirHalted (Path.directoryPlain named pieces plain) (Path.directoryFilled p) still

theorem persistHalted {name : String} (last : (splitLast p.pieces).2 = .name name)
    (plain : p.hasNul = false) (halted : t.slot p = .error .notADirectory) :
    ∃ cause, t.persist site .sound p flags = (t, .error cause) := by
  obtain ⟨⟨why, refused, found⟩, missing⟩ := directoryHalted last plain halted
  have filled : p.isEmpty = false := by
    obtain ⟨_, k, pieces⟩ := splitLastName last
    rw [Path.isEmpty, pieces]
    simp
  have first : Writing.comparing.step (t.draft site p flags) t = (t, .climbing p.directory []) := by
    simp only [Writing.step, draft, filled, readHalted last plain halted]
    rfl
  have second : (Writing.climbing p.directory []).step (t.draft site p flags) t =
      (t, .confirming p.directory [] why) := by
    simp only [Writing.step, Path.directoryFilled, refused, if_neg found]
    rfl
  have third : (Writing.confirming p.directory [] why).step (t.draft site p flags) t =
      (t, Writing.failed (t.draft site p flags) why.message) := by
    simp only [Writing.step, missing]
    rfl
  have start : t.persist site .sound p flags =
      Writing.finish (t.draft site p flags) .sound t .comparing := rfl
  refine ⟨⟨p.text, why.message⟩, ?_⟩
  rw [start, Writing.finishStep rfl first, Writing.finishStep rfl second,
    Writing.finishStep rfl third]
  exact Writing.finishDone ..

theorem persistAgain (done : t.persist site .sound p flags = (after, .ok outcome)) :
    after.persist site .sound p flags = (after, .ok .unchanged) ∨
      (after.read p = .error (.system .notADirectory) ∧ t.Crossed p) ∧
        ∃ cause, after.persist site .sound p flags = (after, .error cause) := by
  have renders := t.draftRenders site p flags
  have stands := Writing.reachedStands renders.apart (Writing.finishReached .start done)
  cases outcome with
  | unchanged =>
    obtain ⟨rfl, _⟩ := stands
    exact .inl done
  | written =>
    obtain ⟨ground, loc, mode, placed, _⟩ := stands
    have last := slotName placed.place
    rcases Writing.placedSlot placed with place | halted
    · have read := readPlaced place placed.short placed.plain placed.complete
      rw [Content.bytes, renders.content] at read
      exact .inl ((Draft.writeUnchanged (after.draftRenders site p flags) after).mpr read)
    · refine .inr ⟨⟨readHalted last placed.plain halted, Writing.placedCrossed placed halted⟩, ?_⟩
      exact persistHalted last placed.plain halted

end Tree

theorem Launch.findProgram {t : Tree} {environment : Environment} {i : Invocation}
    {id mode : Nat} {program : Program} (slashed : i.program.toList.contains '/' = true)
    (fits : Image.overlong (given environment i) = false)
    (here : t.entry true (.ofText i.program) = .ok ⟨id, .file (.program program) mode⟩)
    (permitted : mode &&& Image.executeBits ≠ 0) :
    find t environment i = .ok (.program ⟨program, []⟩) := by
  have named : i.program ≠ "" := by
    intro bare
    rw [bare] at slashed
    cases slashed
  have filled : (Path.ofText i.program).isEmpty = false := by
    cases led : t.resolve true (.ofText i.program) with
    | error why =>
      rw [Tree.entry, led] at here
      cases here
    | ok goal => exact Tree.resolveNonempty led
  have image : Image.image t (.ofText i.program) = .ok (.program program) := by
    simp only [Image.image, filled, here, bind, Except.bind, Bool.false_eq_true, if_false,
      if_neg permitted]
    rfl
  simp only [find, if_neg named, if_pos slashed, Image.run, image, fits, bind, Except.bind,
    Bool.false_eq_true, if_false]
  rw [Image.execute]
  rfl

namespace World

/- A probe that is the same and tells the same in two trees. A program is, if its name leads to it
in both and it leaves the tree to others; anything else has to be told, and to leave the second tree
alone. -/
inductive Alike (conduct : Conduct) (environment : Environment) (i : Invocation)
    (before now : Tree) : Prop where
  | program {launch shell} (direct : conduct = .direct shell)
      (found : Launch.find before environment i = .ok (.program launch))
      (still : Launch.find now environment i = .ok (.program launch))
  | same {found} (was : Launch.find before environment i = .ok found)
      (still : Launch.find now environment i = .ok found)
      (same : conduct now (Launch.given environment i) found =
        ⟨(conduct before (Launch.given environment i) found).story, now⟩)

theorem alikePerforms {conduct : Conduct} {environment : Environment} {i : Invocation}
    {before now : Tree} (alike : Alike conduct environment i before now) {story : Story}
    (told : (Launch.perform conduct before environment i).map (·.story) = .ok story) :
    Launch.perform conduct now environment i = .ok ⟨story, now⟩ := by
  cases performed : Launch.perform conduct before environment i with
  | error why =>
    rw [performed] at told
    cases told
  | ok performance =>
    rw [performed] at told
    cases told
    obtain ⟨passable, found, located, rfl⟩ := Launch.performFound.mp performed
    cases alike with
    | program direct was still =>
      cases located.symm.trans was
      exact Launch.performFound.mpr ⟨passable, _, still, by rw [direct]; rfl⟩
    | same was still same =>
      cases located.symm.trans was
      exact Launch.performFound.mpr ⟨passable, _, still, same.symm⟩

section

variable {w : World} {request : Request} {timeline : Timeline} {report : Report}

theorem reportPersists
    (done : (services.run request timeline w).1.result? = some (.ok report)) :
    ∃ captured, (services.answer request timeline w).result = some (.ok captured) ∧
      report = ⟨request.probe, request.output.text,
        (Directive.flags captured.stdout).map Flag.display, report.outcome, report.duration⟩ ∧
      (w.leftBy request.invocation timeline).persist w.site .sound request.output
        (Directive.flags captured.stdout) =
          ((services.run request timeline w).2.tree, .ok report.outcome) := by
  obtain ⟨captured, outcome, said, kept, rfl, last⟩ := services.runReported request done
  refine ⟨captured, said, rfl, Prod.ext ?_ kept⟩
  exact (congrArg World.tree last).symm

theorem runCircumstances
    (done : (services.run request timeline w).1.result? = some (.ok report)) :
    (services.run request timeline w).2.environment = w.environment ∧
      (services.run request timeline w).2.grace = w.grace ∧
      (services.run request timeline w).2.conduct = w.conduct ∧
      (services.run request timeline w).2.site = w.site := by
  obtain ⟨captured, outcome, _, _, _, last⟩ := services.runReported request done
  rw [last]
  exact ⟨rfl, rfl, rfl, rfl⟩

theorem answerRepeats {story : Story} {captured : Captured} {now : World} {again : Timeline}
    (told : w.story request.invocation = .ok story) (grace : now.grace = w.grace)
    (said : (services.answer request timeline w).result = some (.ok captured))
    (performed : now.performance request.invocation = .ok ⟨story, now.tree⟩)
    (unheard : again.heardBy .returned = false) :
    (services.answer request again now).result = some (.ok captured) ∧
      (services.answer request again now).state.tree = now.tree := by
  have retold : now.story request.invocation = .ok story := by
    rw [World.story, performed]
    rfl
  have due : again.heardBy story.due = false := by
    unfold Story.due
    split
    · exact Timeline.unheardEarlier (by decide) unheard
    · exact unheard
  have undisturbed : (Course.of (.ok story) .none request.invocation.program w.grace .quiet).result =
      some (.ok captured) := by
    have first : (Course.of (w.story request.invocation) .none request.invocation.program w.grace
      timeline).result = some (.ok captured) := said
    rw [told] at first
    rcases Course.courseResult (.ok story) .none request.invocation.program w.grace timeline with
      cancelled | same
    · rw [cancelled] at first
      cases first
    · exact same.symm.trans first
  have second : (services.answer request again now).result = (Course.of
      (now.story request.invocation) .none request.invocation.program now.grace again).result := rfl
  refine ⟨?_, ?_⟩
  · rw [second, retold, grace, Course.courseUnheard due, undisturbed]
  · have left : (services.answer request again now).state.tree =
      now.leftBy request.invocation again := rfl
    rw [left, leftBy, performed]
    exact ite_self _

theorem runRepeats (done : (services.run request timeline w).1.result? = some (.ok report))
    (alike : Alike w.conduct w.environment request.invocation w.tree
      (services.run request timeline w).2.tree)
    {again : Timeline} (unheard : again.heardBy .returned = false) :
    let after := (services.run request timeline w).2
    (services.run request again after).2.tree = after.tree ∧
    ((∃ duration, (services.run request again after).1.result? =
        some (.ok { report with outcome := .unchanged, duration := duration })) ∨
      (after.tree.read request.output = .error (.system .notADirectory) ∧
        (w.leftBy request.invocation timeline).Crossed request.output) ∧
      ∃ cause, (services.run request again after).1.result? = some (.error (.write cause))) := by
  intro after
  obtain ⟨captured, said, account, first⟩ := reportPersists done
  obtain ⟨environment, grace, conduct, site⟩ := runCircumstances done
  rw [← site] at first
  obtain ⟨_, story, told, same⟩ := Course.courseOk said
  have performed : after.performance request.invocation = .ok ⟨story, after.tree⟩ := by
    rw [World.performance, environment, conduct]
    exact alikePerforms alike told
  obtain ⟨resaid, still⟩ := answerRepeats told grace said performed unheard
  have delivered : ∀ {tree result}, after.tree.persist after.site .sound request.output
      (Directive.flags captured.stdout) = (tree, result) →
      (services.delivery request (services.answer request again after) captured).result = result ∧
      (services.delivery request (services.answer request again after) captured).state.tree =
        tree := by
    intro tree result persisted
    rw [← still] at persisted
    exact ⟨congrArg Prod.snd persisted, congrArg Prod.fst persisted⟩
  have ends := services.runEnds request again after
  generalize (services.run request again after).1.result? = result at ends ⊢
  generalize (services.run request again after).2 = latest at ends ⊢
  cases ends with
  | hung silent => cases silent.symm.trans resaid
  | failed failed => cases failed.symm.trans resaid
  | cancelled _ given => cases given.symm.trans unheard
  | unwritten ended _ refused =>
    cases ended.symm.trans resaid
    rcases Tree.persistAgain first with unchanged | ⟨crossed, cause, persisted⟩
    · cases refused.symm.trans (delivered unchanged).1
    · exact ⟨(delivered persisted).2, .inr ⟨crossed, _, rfl⟩⟩
  | reported ended _ kept =>
    cases ended.symm.trans resaid
    rcases Tree.persistAgain first with unchanged | ⟨crossed, cause, persisted⟩
    · cases kept.symm.trans (delivered unchanged).1
      rw [account]
      exact ⟨(delivered unchanged).2, .inl ⟨_, rfl⟩⟩
    · cases kept.symm.trans (delivered persisted).1

end

theorem findDirective {t : Tree}
    (here : t.entry true (.ofText "./p") = .ok ⟨1, .file (.program directive.program) 0o755⟩) :
    Launch.find t .empty (.new "./p") = .ok (.program ⟨directive.program, []⟩) :=
  Launch.findProgram (by decide) (by decide) here (by decide)

theorem singleRepeats :
    let report : Report := ⟨"./p", "a/b", ["--cfg=x"], .written, 0⟩
    let after := (services.run (toSingle "a/b") .quiet single).2
    (services.run (toSingle "a/b") .quiet single).1.result? = some (.ok report) ∧
    Alike single.conduct .empty (.new "./p") single.tree after.tree ∧
    Timeline.quiet.heardBy .returned = false ∧
    (services.run (toSingle "a/b") .quiet after).2.tree = after.tree ∧
    ((∃ duration, (services.run (toSingle "a/b") .quiet after).1.result? =
        some (.ok { report with outcome := .unchanged, duration := duration })) ∨
      (after.tree.read (.ofText "a/b") = .error (.system .notADirectory) ∧
        single.tree.Crossed (.ofText "a/b")) ∧
      ∃ cause, (services.run (toSingle "a/b") .quiet after).1.result? =
        some (.error (.write cause))) := by
  intro report after
  have done : (services.run (toSingle "a/b") .quiet single).1.result? = some (.ok report) := by
    cbv
  have found : single.tree.entry true (.ofText "./p") =
      .ok ⟨1, .file (.program directive.program) 0o755⟩ := by cbv
  have still : (services.run (toSingle "a/b") .quiet single).2.tree.entry true (.ofText "./p") =
      .ok ⟨1, .file (.program directive.program) 0o755⟩ := by cbv
  have alike : Alike single.conduct .empty (.new "./p") single.tree after.tree :=
    .program rfl (findDirective found) (findDirective still)
  have unheard := Timeline.quietUnheard .returned
  have repeats := runRepeats done alike unheard
  have left : single.leftBy (.new "./p") .quiet = single.tree := by cbv
  exact ⟨done, alike, unheard, left ▸ repeats⟩

theorem repeatedElsewhere :
    let after := (services.run (toSingle "l/../l") .quiet linked).2
    (services.run (toSingle "l/../l") .quiet linked).1.result? =
        some (.ok ⟨"./p", "l/../l", ["--cfg=x"], .written, 0⟩) ∧
    Alike linked.conduct .empty (.new "./p") linked.tree after.tree ∧
    (services.run (toSingle "l/../l") .quiet after).1.result? =
      some (.error (.write ⟨"l/../l", "Not a directory (os error 20)"⟩)) := by
  intro after
  have found : linked.tree.entry true (.ofText "./p") =
      .ok ⟨1, .file (.program directive.program) 0o755⟩ := by cbv
  obtain ⟨⟨ran, _⟩, still, refused⟩ := linkedRun
  exact ⟨ran, .program rfl (findDirective found) (findDirective still), refused⟩

end World
end BuildProbe
