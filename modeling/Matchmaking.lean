import Matchmaking.Delivery
import Matchmaking.Main
import Matchmaking.Schedule.Traffic
import Matchmaking.Surplus
import Matchmaking.Ticket.Form
import Matchmaking.Proofs.Contents
import Matchmaking.Proofs.Roster
import Matchmaking.Proofs.Admission
import Matchmaking.Proofs.Moves
import Matchmaking.Proofs.Runs
import Matchmaking.Proofs.Agreement
import Matchmaking.Proofs.Deliberation
import Matchmaking.Proofs.Buffers
import Matchmaking.Proofs.Rankings
import Matchmaking.Proofs.Candidates
import Matchmaking.Proofs.Bookings
import Matchmaking.Proofs.Trimming
import Matchmaking.Proofs.Combinations
import Matchmaking.Proofs.Fitting
import Matchmaking.Proofs.Formation
import Matchmaking.Proofs.Books
import Matchmaking.Proofs.Conservation
import Matchmaking.Proofs.Memory
import Matchmaking.Proofs.Acts
import Matchmaking.Proofs.Answers
import Matchmaking.Proofs.Runnable
import Matchmaking.Proofs.Enumeration
import Matchmaking.Proofs.Proposals
import Matchmaking.Proofs.Refinement
import Matchmaking.Proofs.Replays
import Matchmaking.Proofs.Inquiries
import Matchmaking.Proofs.Shortlists
import Matchmaking.Proofs.Offers
import Matchmaking.Proofs.Exchange
import Matchmaking.Proofs.Choices
import Matchmaking.Proofs.Selection
import Matchmaking.Proofs.Suiting
import Matchmaking.Proofs.Youngest
import Matchmaking.Proofs.Intervals
import Matchmaking.Proofs.Lines
import Matchmaking.Proofs.Pools
import Matchmaking.Proofs.Uniform
import Matchmaking.Proofs.Setbacks
import Matchmaking.Proofs.Departures
import Matchmaking.Proofs.Pacing
import Matchmaking.Proofs.Handovers
import Matchmaking.Proofs.Promotions
import Matchmaking.Proofs.Bounds
import Matchmaking.Proofs.Hosts
import Matchmaking.Proofs.Companions
import Matchmaking.Proofs.Interleavings
import Matchmaking.Proofs.Draining
import Matchmaking.Proofs.Notes
import Matchmaking.Proofs.Lifetimes
import Matchmaking.Proofs.Views
import Matchmaking.Proofs.Withdrawals
import Matchmaking.Proofs.Caps
import Matchmaking.Proofs.Tallies
import Matchmaking.Proofs.Journals
import Matchmaking.Proofs.Accounts
import Matchmaking.Proofs.Waiting
import Matchmaking.Proofs.Carriers
import Matchmaking.Proofs.Plans
import Matchmaking.Proofs.Settling
import Matchmaking.Proofs.LastPlace
import Matchmaking.Proofs.Precedence
import Matchmaking.Proofs.Leftovers
import Matchmaking.Proofs.Tables
import Matchmaking.Proofs.Properties
import Matchmaking.Proofs.Fields
import Matchmaking.Proofs.Forms
import Matchmaking.Proofs.Omissions
import Matchmaking.Proofs.Assignments
import Matchmaking.Proofs.Layering
import Matchmaking.Proofs.Loading
import Matchmaking.Proofs.Words
import Matchmaking.Proofs.Budgets
import Matchmaking.Proofs.Loners
import Matchmaking.Proofs.Masks
import Matchmaking.Proofs.Reckoning
import Matchmaking.Proofs.Arithmetic
import Matchmaking.Proofs.Pairings
import Matchmaking.Proofs.Margins
import Matchmaking.Proofs.Edits
import Matchmaking.Proofs.Recollection
import Matchmaking.Proofs.Seniority
