import LetIf.Grammar.Rules
import LetIf.Scan
import LetIf.Stream

/-!
# Parsing

A rule is run on a stream by reading the terminals before the first end token.
The stream then takes as many tokens as the rule read terminals, and a refusal
becomes a diagnostic at the token it is about.
-/

namespace LetIf

structure Outcome (α : Type) where
  result : Except Diagnostic α
  stream : Stream
  events : List Event

namespace Stream

def terminals (s : Stream) : List Terminal := s.word.map Token.toTerminal

def blamed (s : Stream) : Blame → Token
  | .next => s.next
  | .latest => s.latest

def run {α : Type} (s : Stream) (rule : List Terminal → Reading α) : Outcome α :=
  let reading := rule s.terminals
  let stream := s.skip (s.word.length - reading.rest.length)
  match reading.result with
  | .ok a => ⟨.ok a, stream, reading.events⟩
  | .error refusal =>
    let token := stream.blamed refusal.blame
    ⟨.error (stream.diagnosticAt refusal.cause token), stream,
      reading.events ++ [.refused refusal.cause token.span.start]⟩

def parse (s : Stream) : Outcome Program := s.run Grammar.whole

end Stream

def parseSource (source : String) : Except Diagnostic Program :=
  match tokenize source with
  | .error d => .error d
  | .ok tokens => (Stream.ofTokens tokens source).parse.result

def sourceEvents (source : String) : List Event :=
  let scan := Scan.ofSource source
  scan.events ++
    match scan.result source with
    | .error _ => []
    | .ok tokens => (Stream.ofTokens tokens source).parse.events

end LetIf
