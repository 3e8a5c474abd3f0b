import WireBench.CommandLine.Segment
import WireBench.Http.Layout
import WireBench.Http.Receiving
import WireBench.Http.Spelling
import WireBench.Http.Stream
import WireBench.Http.Writing
import WireBench.Json.Shape
import WireBench.Main
import WireBench.Multipart.Decode
import WireBench.Multipart.Markers
import WireBench.Server.Lifecycle
import WireBench.Proofs.Framing
import WireBench.Proofs.MarkerPlaces
import WireBench.Proofs.FormDataReading
import WireBench.Proofs.DecimalText
import WireBench.Proofs.HeaderSection
import WireBench.Proofs.RequestPipelining
import WireBench.Proofs.ResponseReading
import WireBench.Proofs.AnswerFraming
import WireBench.Proofs.AnswerStream
import WireBench.Proofs.LineReading
import WireBench.Proofs.MessageEnds
import WireBench.Proofs.Transmission
import WireBench.Proofs.BrokenConnections
import WireBench.Proofs.FreshBoundaries
import WireBench.Proofs.Collisions
import WireBench.Proofs.FormAnswers
import WireBench.Proofs.Segmentation
import WireBench.Proofs.NumeralText
import WireBench.Proofs.SettingsReading
import WireBench.Proofs.JsonGrammar
import WireBench.Proofs.JsonTexts
import WireBench.Proofs.JsonNumerals
import WireBench.Proofs.JsonTokens
import WireBench.Proofs.JsonParsing
import WireBench.Proofs.JsonCanonical
import WireBench.Proofs.JsonWriting
import WireBench.Proofs.EchoAnswers
import WireBench.Proofs.SendingInPieces
import WireBench.Proofs.RequestReading
import WireBench.Proofs.QueryReading
import WireBench.Proofs.ResponseHeads
import WireBench.Proofs.Utf8Order
import WireBench.Proofs.LastFields
import WireBench.Proofs.CanonicalRequests
import WireBench.Proofs.WrittenOrder
import WireBench.Proofs.JoinedCommandLines
import WireBench.Proofs.LossyText
import WireBench.Proofs.BaseNames
import WireBench.Proofs.CutRequests
import WireBench.Proofs.FileNames
import WireBench.Proofs.CalendarDates
import WireBench.Proofs.DatagramSending
import WireBench.Proofs.DashPatterns
import WireBench.Proofs.Shutdown
import WireBench.Proofs.PathEnds
