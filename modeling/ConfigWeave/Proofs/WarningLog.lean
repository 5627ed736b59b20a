import ConfigWeave.WarningLog
import Mathlib.Algebra.Ring.Nat
import Mathlib.Data.List.Basic
import Mathlib.Data.List.Induction

namespace ConfigWeave

/-- A warning as it was given. -/
structure Warning where
  origin : String
  message : String
deriving DecidableEq, Repr

namespace Warning

/-- The messages of warnings, each once, in the order in which they first came. -/
def messages (given : List Warning) : List String :=
  (given.map message).eraseDups

/-- How often a message was given. -/
def times (given : List Warning) (text : String) : Nat :=
  given.countP (·.message = text)

/-- Who gave a message first. -/
def firstOrigin? (given : List Warning) (text : String) : Option String :=
  (given.find? (·.message = text)).map origin

/-- What is shown of a message: the number of times behind it, if it was given more than once. -/
def line (given : List Warning) (text : String) : String :=
  let times := times given text
  if 1 < times then s!"{text} ({times} times)" else text

def events (given : List Warning) : List LogEvent :=
  (messages given).map fun text => ⟨.warn, firstOrigin? given text, line given text⟩

/-- How many warnings there were and how many different ones, if there were any. -/
def summary (given : List Warning) : List LogEvent :=
  let total := given.length
  let distinct := (messages given).length
  if total = 0 then [] else [⟨.warn, none, s!"{total} warnings ({distinct} distinct)"⟩]

/-- What a log holds of warnings. -/
def tally (given : List Warning) : List Occurrences :=
  (messages given).map fun text => ⟨text, times given text, (firstOrigin? given text).getD ""⟩

theorem mem_messages {given : List Warning} {text : String} :
    text ∈ messages given ↔ ∃ w ∈ given, w.message = text := by
  rw [messages, List.mem_eraseDups, List.mem_map]

theorem messages_concat (given : List Warning) (w : Warning) :
    messages (given ++ [w]) =
      if w.message ∈ messages given then messages given else messages given ++ [w.message] := by
  simp only [messages, List.mem_eraseDups, List.map_append, List.map_singleton, List.eraseDups_append,
    List.removeAll]
  generalize given.map message = earlier
  by_cases known : w.message ∈ earlier
  · simp [known]
  · simp [known, List.eraseDups_cons]

theorem nodup_messages (given : List Warning) : (messages given).Nodup := by
  induction given using List.reverseRecOn with
  | nil => exact List.nodup_nil
  | append_singleton given w ih =>
    rw [messages_concat]
    split
    · exact ih
    · rename_i fresh
      refine List.nodup_append.mpr ⟨ih, List.pairwise_singleton _ _, fun text member other last same => fresh ?_⟩
      rwa [← List.mem_singleton.mp last, ← same]

theorem times_concat (given : List Warning) (w : Warning) (text : String) :
    times (given ++ [w]) text = times given text + if w.message = text then 1 else 0 := by
  simp [times, List.countP_append, List.countP_singleton]

theorem firstOrigin?_concat (given : List Warning) (w : Warning) (text : String) :
    firstOrigin? (given ++ [w]) text =
      (firstOrigin? given text).or (if w.message = text then some w.origin else none) := by
  rw [firstOrigin?, List.find?_append, firstOrigin?]
  cases given.find? (·.message = text) with
  | some first => rfl
  | none =>
    by_cases same : w.message = text
    · simp [same]
    · simp [same]

theorem exists_firstOrigin? {given : List Warning} {text : String} (member : text ∈ messages given) :
    ∃ origin, firstOrigin? given text = some origin := by
  obtain ⟨w, among, same⟩ := mem_messages.mp member
  obtain ⟨first, found⟩ : ∃ first, given.find? (·.message = text) = some first :=
    Option.isSome_iff_exists.mp (List.find?_isSome.mpr ⟨w, among, decide_eq_true same⟩)
  exact ⟨first.origin, congrArg (Option.map Warning.origin) found⟩

theorem times_pos {given : List Warning} {text : String} (member : text ∈ messages given) :
    0 < times given text := by
  obtain ⟨w, among, same⟩ := mem_messages.mp member
  exact List.countP_pos_iff.mpr ⟨w, among, decide_eq_true same⟩

theorem times_of_not_mem {given : List Warning} {text : String} (fresh : text ∉ messages given) :
    times given text = 0 :=
  List.countP_eq_zero.mpr fun w among same => fresh (mem_messages.mpr ⟨w, among, of_decide_eq_true same⟩)

theorem firstOrigin?_of_not_mem {given : List Warning} {text : String} (fresh : text ∉ messages given) :
    firstOrigin? given text = none := by
  rw [firstOrigin?, List.find?_eq_none.mpr, Option.map_none]
  exact fun w among same => fresh (mem_messages.mpr ⟨w, among, of_decide_eq_true same⟩)

theorem message_tally (given : List Warning) : (tally given).map Occurrences.message = messages given := by
  rw [tally, List.map_map]
  exact List.map_id _

end Warning

/-- An entry with one more occurrence, if it is that of the message. -/
def Occurrences.counting (message : String) (entry : Occurrences) : Occurrences :=
  { entry with count := entry.count + if message = entry.message then 1 else 0 }

theorem Occurrences.counting_of_ne {message : String} {entry : Occurrences} (other : message ≠ entry.message) :
    entry.counting message = entry := by
  rw [counting, if_neg other, Nat.add_zero]

namespace WarningLog

theorem countIn_of_not_mem {message : String} {entries : List Occurrences}
    (fresh : message ∉ entries.map Occurrences.message) (origin : String) :
    countIn origin message entries = entries ++ [⟨message, 1, origin⟩] := by
  induction entries with
  | nil => rfl
  | cons entry rest ih =>
    rw [List.map_cons, List.mem_cons, not_or] at fresh
    rw [countIn, if_neg (Ne.symm fresh.1), ih fresh.2, List.cons_append]

theorem countIn_of_mem {message : String} {entries : List Occurrences}
    (apart : (entries.map Occurrences.message).Nodup) (known : message ∈ entries.map Occurrences.message)
    (origin : String) :
    countIn origin message entries = entries.map (Occurrences.counting message) := by
  induction entries with
  | nil => cases known
  | cons entry rest ih =>
    obtain ⟨fresh, later⟩ := List.nodup_cons.mp apart
    rw [countIn, List.map_cons]
    by_cases here : message = entry.message
    · have others : rest.map (Occurrences.counting message) = rest := by
        refine (List.map_congr_left fun other among => ?_).trans (List.map_id rest)
        exact Occurrences.counting_of_ne fun same => fresh (List.mem_map.mpr ⟨other, among, same.symm.trans here⟩)
      rw [if_pos here.symm, others, Occurrences.counting, if_pos here]
    · have among : message ∈ rest.map Occurrences.message := (List.mem_cons.mp known).resolve_left here
      rw [if_neg (Ne.symm here), ih later among, Occurrences.counting_of_ne here]

/-- Counting one more warning adds it to what the log holds of those before. -/
theorem countIn_tally (given : List Warning) (w : Warning) :
    countIn w.origin w.message (Warning.tally given) = Warning.tally (given ++ [w]) := by
  have listed := Warning.message_tally given
  by_cases known : w.message ∈ Warning.messages given
  · rw [countIn_of_mem (listed ▸ Warning.nodup_messages given) (listed ▸ known), Warning.tally, Warning.tally,
      Warning.messages_concat, if_pos known, List.map_map]
    refine List.map_congr_left fun text member => ?_
    obtain ⟨first, origin⟩ := Warning.exists_firstOrigin? member
    rw [Function.comp_apply, Occurrences.counting, Warning.times_concat, Warning.firstOrigin?_concat, origin,
      Option.some_or]
  · rw [countIn_of_not_mem (listed ▸ known), Warning.tally, Warning.tally, Warning.messages_concat, if_neg known,
      List.map_append, List.map_singleton, Warning.times_concat, Warning.firstOrigin?_concat,
      Warning.times_of_not_mem known, Warning.firstOrigin?_of_not_mem known, if_pos rfl, if_pos rfl]
    refine congrArg (· ++ _) (List.map_congr_left fun text member => ?_)
    have other : w.message ≠ text := fun same => known (same ▸ member)
    rw [Warning.times_concat, Warning.firstOrigin?_concat, if_neg other, if_neg other, Option.or_none, Nat.add_zero]

theorem total_countIn (origin message : String) (entries : List Occurrences) :
    total ⟨countIn origin message entries⟩ = total ⟨entries⟩ + 1 := by
  induction entries with
  | nil => rfl
  | cons entry rest ih =>
    rw [countIn]
    split
    · simp only [total, List.foldr_cons]
      omega
    · simp only [total, List.foldr_cons] at ih ⊢
      omega

theorem total_tally (given : List Warning) : total ⟨Warning.tally given⟩ = given.length := by
  induction given using List.reverseRecOn with
  | nil => rfl
  | append_singleton given w ih =>
    rw [← countIn_tally, total_countIn, ih, List.length_append, List.length_singleton]

/-- The counts of all messages add up to the number of warnings. -/
theorem sum_times (given : List Warning) :
    ((Warning.messages given).map (Warning.times given)).sum = given.length := by
  rw [← total_tally, total, Warning.tally, List.foldr_map, List.sum, List.foldr_map]

theorem summary_tally (given : List Warning) : summary ⟨Warning.tally given⟩ = Warning.summary given := by
  have distinct : (Warning.tally given).length = (Warning.messages given).length := List.length_map _
  rw [summary, total_tally, distinct, Warning.summary]

theorem count_tally (given : List Warning) (text : String) :
    count ⟨Warning.tally given⟩ text = Warning.times given text := by
  rw [count, Warning.tally, List.find?_map]
  by_cases known : text ∈ Warning.messages given
  · obtain ⟨found, is⟩ : ∃ found, (Warning.messages given).find? (· = text) = some found :=
      Option.isSome_iff_exists.mp (List.find?_isSome.mpr ⟨text, known, decide_eq_true rfl⟩)
    obtain rfl : found = text := by simpa using List.find?_some is
    rw [Function.comp_def, is]
    rfl
  · have absent : (Warning.messages given).find? (· = text) = none :=
      List.find?_eq_none.mpr fun other member same => known (of_decide_eq_true same ▸ member)
    rw [Function.comp_def, absent, Warning.times_of_not_mem known]
    rfl

/-- A message that was given has the line that the log shows for it. -/
theorem line_occurrences {given : List Warning} {text : String} (member : text ∈ Warning.messages given)
    (origin : String) :
    (Occurrences.mk text (Warning.times given text) origin).line = Warning.line given text := by
  have pos := Warning.times_pos member
  rw [Occurrences.line, Warning.line]
  by_cases once : Warning.times given text = 1
  · rw [if_pos once, if_neg (by omega)]
  · rw [if_neg once, if_pos (by omega)]

theorem lines_tally (given : List Warning) :
    lines ⟨Warning.tally given⟩ = (Warning.messages given).map (Warning.line given) := by
  rw [lines, Warning.tally, List.map_map]
  exact List.map_congr_left fun text member => line_occurrences member _

theorem flushed_tally (given : List Warning) : flushed ⟨Warning.tally given⟩ = Warning.events given := by
  rw [flushed, Warning.tally, List.map_map, Warning.events]
  refine List.map_congr_left fun text member => ?_
  obtain ⟨first, origin⟩ := Warning.exists_firstOrigin? member
  rw [Function.comp_apply, Occurrences.event, line_occurrences member, origin, Option.getD_some]

end WarningLog

namespace LogRequest

/-- The warning that a request gives, under the name that it has for its origin. -/
def warning? : LogRequest → Option Warning
  | .warn origin message => some ⟨origin, message⟩
  | .report logger message => some ⟨logger.text, message⟩
  | .tracked | .count _ | .flush | .close => none

/-- Whether a request empties the log. -/
def empties : LogRequest → Bool
  | .flush | .close => true
  | .warn .. | .report .. | .tracked | .count _ => false

/-- The warnings given before the log is first emptied, between one time and the next, and behind the last one. -/
def stretches (requests : List LogRequest) : List (List Warning) :=
  (requests.splitOnP empties).map fun stretch => stretch.filterMap warning?

/-- The warnings given since the log was last emptied. -/
def pending (requests : List LogRequest) : List Warning :=
  (stretches requests).getLastD []

theorem stretches_ne_nil (requests : List LogRequest) : stretches requests ≠ [] :=
  mt List.map_eq_nil_iff.mp (List.splitOnP_ne_nil empties requests)

theorem stretches_cons (request : LogRequest) (rest : List LogRequest) :
    stretches (request :: rest) =
      if request.empties then [] :: stretches rest
      else (stretches rest).modifyHead (request.warning?.toList ++ ·) := by
  obtain ⟨first, others, split⟩ := List.exists_cons_of_ne_nil (List.splitOnP_ne_nil empties rest)
  rw [stretches, List.splitOnP_cons_eq_if_modifyHead, stretches]
  by_cases emptying : request.empties = true
  · rw [if_pos emptying, if_pos emptying]
    rfl
  · rw [if_neg emptying, if_neg emptying, split, List.modifyHead_cons, List.map_cons, List.map_cons,
      List.modifyHead_cons, List.filterMap_cons]
    cases request.warning? <;> rfl

theorem warning?_of_empties {request : LogRequest} (emptying : request.empties = true) :
    request.warning? = none := by
  cases request with
  | flush | close => rfl
  | warn | report | tracked | count => cases emptying

/-- Every warning is given in one of the stretches. -/
theorem flatten_stretches (requests : List LogRequest) :
    (stretches requests).flatten = requests.filterMap warning? := by
  induction requests with
  | nil => rfl
  | cons request rest ih =>
    rw [stretches_cons, List.filterMap_cons, ← ih]
    split
    · rename_i emptying
      rw [warning?_of_empties emptying]
      rfl
    · obtain ⟨first, others, split⟩ := List.exists_cons_of_ne_nil (stretches_ne_nil rest)
      rw [split]
      cases request.warning? <;> rfl

theorem modifyHead_nil_append (requests : List LogRequest) :
    (stretches requests).modifyHead ([] ++ ·) = stretches requests := by
  cases stretches requests <;> rfl

end LogRequest

/-- What the log showed of its warnings where it was emptied. Only a summary has no origin. -/
def LogResponse.emptied? (response : LogResponse) : Option (List LogEvent) :=
  match response.answer with
  | .lines _ => some (response.shown.filter (·.origin.isSome))
  | .done | .messages _ | .count _ => none

namespace WarningLog

/-- Flushing shows the messages given, closing a summary in front of them. Nothing is left behind either. -/
theorem respond_tally (given : List Warning) (request : LogRequest) :
    respond ⟨Warning.tally given⟩ request =
      match request with
      | .warn .. | .report .. => (⟨.done, []⟩, ⟨Warning.tally (given ++ request.warning?.toList)⟩)
      | .tracked => (⟨.messages (Warning.messages given), []⟩, ⟨Warning.tally given⟩)
      | .count text => (⟨.count (Warning.times given text), []⟩, ⟨Warning.tally given⟩)
      | .flush => (⟨.lines ((Warning.messages given).map (Warning.line given)), Warning.events given⟩, .empty)
      | .close =>
        (⟨.lines ((Warning.messages given).map (Warning.line given)),
          Warning.summary given ++ Warning.events given⟩, .empty) := by
  have counted (w : Warning) : WarningLog.mk (countIn w.origin w.message (Warning.tally given)) =
      ⟨Warning.tally (given ++ [w])⟩ :=
    congrArg WarningLog.mk (countIn_tally given w)
  cases request with
  | warn origin message => exact congrArg (Prod.mk _) (counted ⟨origin, message⟩)
  | report logger message => exact congrArg (Prod.mk _) (counted ⟨logger.text, message⟩)
  | tracked => rw [respond, tracked, Warning.message_tally]
  | count text => rw [respond, count_tally]
  | flush => rw [respond, lines_tally, flushed_tally]
  | close => rw [respond, lines_tally, closed, flushed_tally, summary_tally]

theorem emptied?_of_flushed (answer : List String) {introduction : List LogEvent}
    (general : ∀ event ∈ introduction, event.origin = none) (given : List Warning) :
    LogResponse.emptied? ⟨.lines answer, introduction ++ Warning.events given⟩ = some (Warning.events given) := by
  have own : ∀ event ∈ Warning.events given, event.origin.isSome = true := by
    rw [← flushed_tally]
    intro event member
    obtain ⟨entry, _, rfl⟩ := List.mem_map.mp member
    rfl
  have unnamed : ∀ event ∈ introduction, ¬event.origin.isSome = true :=
    fun event member => by simp [general event member]
  rw [LogResponse.emptied?, List.filter_append, List.filter_eq_nil_iff.mpr unnamed, List.filter_eq_self.mpr own,
    List.nil_append]

theorem respond_of_empties (given : List Warning) {request : LogRequest} (emptying : request.empties = true) :
    (respond ⟨Warning.tally given⟩ request).1.emptied? = some (Warning.events given) ∧
      (respond ⟨Warning.tally given⟩ request).2 = ⟨Warning.tally []⟩ := by
  rw [respond_tally]
  cases request with
  | flush => exact ⟨emptied?_of_flushed _ (List.forall_mem_nil _) given, rfl⟩
  | close =>
    refine ⟨emptied?_of_flushed _ (fun event member => ?_) given, rfl⟩
    rw [Warning.summary] at member
    split at member
    · cases member
    · rw [List.mem_singleton.mp member]
  | warn | report | tracked | count => cases emptying

theorem respond_of_not_empties (given : List Warning) {request : LogRequest} (keeping : ¬request.empties = true) :
    (respond ⟨Warning.tally given⟩ request).1.emptied? = none ∧
      (respond ⟨Warning.tally given⟩ request).2 = ⟨Warning.tally (given ++ request.warning?.toList)⟩ := by
  rw [respond_tally]
  cases request with
  | warn | report => exact ⟨rfl, rfl⟩
  | tracked | count =>
    refine ⟨rfl, ?_⟩
    rw [LogRequest.warning?, Option.toList_none, List.append_nil]
  | flush | close => exact absurd rfl keeping

/-- A log that holds earlier warnings answers as if they had been given in the first stretch. -/
theorem respondAll_tally (given : List Warning) (requests : List LogRequest) :
    let run := respondAll ⟨Warning.tally given⟩ requests
    let stretches := (LogRequest.stretches requests).modifyHead (given ++ ·)
    run.2 = ⟨Warning.tally (stretches.getLastD [])⟩ ∧
      run.1.filterMap LogResponse.emptied? ++ [run.2.dropped] = stretches.map Warning.events := by
  induction requests generalizing given with
  | nil =>
    have only : (LogRequest.stretches []).modifyHead (given ++ ·) = [given] :=
      congrArg ([·]) (List.append_nil given)
    simp only [only]
    exact ⟨rfl, congrArg ([·]) (flushed_tally given)⟩
  | cons request rest ih =>
    obtain ⟨first, others, split⟩ := List.exists_cons_of_ne_nil (LogRequest.stretches_ne_nil rest)
    simp only [respondAll, List.filterMap_cons]
    by_cases emptying : request.empties = true
    · obtain ⟨emptied, after⟩ := respond_of_empties given emptying
      obtain ⟨last, shown⟩ := ih []
      rw [LogRequest.modifyHead_nil_append] at last shown
      rw [LogRequest.stretches_cons, if_pos emptying, emptied, after, List.modifyHead_cons, List.append_nil,
        List.map_cons, ← shown]
      refine ⟨?_, rfl⟩
      rw [last, split, List.getLastD_cons, List.getLastD_cons, List.getLastD_cons]
    · obtain ⟨kept, after⟩ := respond_of_not_empties given emptying
      have later := ih (given ++ request.warning?.toList)
      rw [LogRequest.stretches_cons, if_neg emptying, kept, after, List.modifyHead_modifyHead]
      simpa only [Function.comp_def, List.append_assoc] using later

/-- At every moment, behind any requests, a log answers for the warnings that were given since it was last emptied,
and what it shows when it is emptied or goes away are these. Each warning is in one stretch between two such times,
and in the order of the stretches each is shown where it ends: no warning is lost, and none is counted twice. -/
theorem respondAll_accounts (requests : List LogRequest) :
    let run := respondAll .empty requests
    let given := LogRequest.pending requests
    let messages := Warning.messages given
    let lines := messages.map (Warning.line given)
    (∀ text, run.2.respond (.count text) = (⟨.count (Warning.times given text), []⟩, run.2)) ∧
    run.2.respond .tracked = (⟨.messages messages, []⟩, run.2) ∧
    run.2.respond .flush = (⟨.lines lines, Warning.events given⟩, .empty) ∧
    run.2.respond .close = (⟨.lines lines, Warning.summary given ++ Warning.events given⟩, .empty) ∧
    run.2.dropped = Warning.events given ∧
    run.1.filterMap LogResponse.emptied? ++ [run.2.dropped] = (LogRequest.stretches requests).map Warning.events ∧
    (LogRequest.stretches requests).flatten = requests.filterMap LogRequest.warning? ∧
    ∀ stretch, ((Warning.messages stretch).map (Warning.times stretch)).sum = stretch.length := by
  intro run given messages lines
  obtain ⟨last, shown⟩ := respondAll_tally [] requests
  rw [LogRequest.modifyHead_nil_append] at last shown
  have log : run.2 = ⟨Warning.tally given⟩ := last
  rw [log]
  refine ⟨fun text => respond_tally given _, respond_tally given _, respond_tally given _, respond_tally given _,
    flushed_tally given, ?_, LogRequest.flatten_stretches requests, sum_times⟩
  rw [← log]
  exact shown

end WarningLog

end ConfigWeave
