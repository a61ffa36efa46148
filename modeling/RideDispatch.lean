import RideDispatch.Clock
import RideDispatch.Confirmation
import RideDispatch.Confirmation.Event
import RideDispatch.Decimal.Fixed
import RideDispatch.Decimal.Shortest
import RideDispatch.Decimal.Word
import RideDispatch.Dispatch.Batch
import RideDispatch.Dispatch.Finder
import RideDispatch.Dispatch.Greedy
import RideDispatch.Dispatch.Report
import RideDispatch.Dispatch.Snapshot
import RideDispatch.Dispatch.State
import RideDispatch.Dispatch.Summary
import RideDispatch.Dispatcher
import RideDispatch.Fleet
import RideDispatch.Fleet.Document
import RideDispatch.Fleet.Schedule
import RideDispatch.Fleet.Vehicle
import RideDispatch.Globe.Cell
import RideDispatch.Globe.Face
import RideDispatch.Globe.Lattice
import RideDispatch.Globe.Lineage
import RideDispatch.Globe.Projection
import RideDispatch.Globe.Region
import RideDispatch.Graph.CostQueue
import RideDispatch.Graph.Search
import RideDispatch.Id
import RideDispatch.Json
import RideDispatch.Json.Printer
import RideDispatch.Json.Record
import RideDispatch.Json.Tree
import RideDispatch.Log
import RideDispatch.Log.Document
import RideDispatch.Matching.Assignment
import RideDispatch.Matching.Sparse
import RideDispatch.Network
import RideDispatch.Network.Cache
import RideDispatch.Network.Way
import RideDispatch.Place
import RideDispatch.Proofs.Accounts
import RideDispatch.Proofs.Agenda
import RideDispatch.Proofs.Agreement
import RideDispatch.Proofs.Answers
import RideDispatch.Proofs.Backing
import RideDispatch.Proofs.Batch
import RideDispatch.Proofs.Chronicle
import RideDispatch.Proofs.Course
import RideDispatch.Proofs.Cycle
import RideDispatch.Proofs.Defects
import RideDispatch.Proofs.Desk
import RideDispatch.Proofs.Diary
import RideDispatch.Proofs.Duty
import RideDispatch.Proofs.Finder
import RideDispatch.Proofs.Handshake
import RideDispatch.Proofs.IdleSupply
import RideDispatch.Proofs.Index
import RideDispatch.Proofs.Itinerary
import RideDispatch.Proofs.Labelling
import RideDispatch.Proofs.Ledger
import RideDispatch.Proofs.Lifecycle
import RideDispatch.Proofs.Likeness
import RideDispatch.Proofs.Matching
import RideDispatch.Proofs.Maximality
import RideDispatch.Proofs.Moves
import RideDispatch.Proofs.Optimum
import RideDispatch.Proofs.Quiescence
import RideDispatch.Proofs.Refusals
import RideDispatch.Proofs.Registry
import RideDispatch.Proofs.Resubmission
import RideDispatch.Proofs.Retirement
import RideDispatch.Proofs.Schedule
import RideDispatch.Proofs.Service
import RideDispatch.Proofs.State
import RideDispatch.Proofs.Stores
import RideDispatch.Proofs.SubmissionOrder
import RideDispatch.Proofs.Table
import RideDispatch.Proofs.Tidy
import RideDispatch.Proofs.Turns
import RideDispatch.Proofs.Unmatched
import RideDispatch.Proofs.Ways
import RideDispatch.Proofs.Zone
import RideDispatch.Random.Block
import RideDispatch.Random.Stream
import RideDispatch.Request
import RideDispatch.Ride.Event
import RideDispatch.Route
import RideDispatch.Route.Document
import RideDispatch.Route.Table
import RideDispatch.Scenario
import RideDispatch.Scenario.Random
import RideDispatch.Settings
import RideDispatch.Settings.Document
import RideDispatch.Simulation
import RideDispatch.Text.Blank
import RideDispatch.Time
import RideDispatch.Zone.Index
import RideDispatch.Zone.Map
import RideDispatch.Proofs.Punctuality
import RideDispatch.Proofs.Cadence
import RideDispatch.Proofs.EdgeList
import RideDispatch.Proofs.Nearest
import RideDispatch.Proofs.AllOrNothing
import RideDispatch.Proofs.Registration
import RideDispatch.Proofs.CostQueue
import RideDispatch.Proofs.Search
import RideDispatch.Proofs.Links
import RideDispatch.Proofs.Passage
import RideDispatch.Proofs.Recall
import RideDispatch.Proofs.Trips
import RideDispatch.Proofs.Timetable
import RideDispatch.Proofs.Logbook
import RideDispatch.Proofs.Delivery
import RideDispatch.Proofs.Numeral
import RideDispatch.Proofs.Attributes
import RideDispatch.Proofs.Outcome
import RideDispatch.Proofs.Printed
import RideDispatch.Proofs.Lines
import RideDispatch.Proofs.Records
import RideDispatch.Proofs.Overflow
import RideDispatch.Proofs.Buckets
import RideDispatch.Proofs.Buildable
import RideDispatch.Proofs.RandomScenario
import RideDispatch.Proofs.Adjacency
